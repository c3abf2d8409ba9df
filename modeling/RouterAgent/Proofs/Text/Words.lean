import Mathlib.Data.List.DropRight
import RouterAgent.Text.Blank

/-!
Words and lines of texts that are put together or cut short.
-/

namespace RouterAgent.Text

lemma not_of_mem_splitOnP {α : Type*} {p : α → Bool} {cs piece : List α}
    (h : piece ∈ cs.splitOnP p) : ∀ c ∈ piece, p c = false := by
  induction cs generalizing piece with
  | nil =>
    obtain rfl : piece = [] := by simpa using h
    simp
  | cons c cs ih =>
    rw [List.splitOnP_cons_eq_if_modifyHead] at h
    split at h
    · rcases List.mem_cons.1 h with rfl | h
      · simp
      · exact ih h
    · next hc =>
      obtain ⟨first, rest, hsplit⟩ := List.exists_cons_of_ne_nil (List.splitOnP_ne_nil p cs)
      rw [hsplit, List.modifyHead_cons] at h
      rcases List.mem_cons.1 h with rfl | h
      · have hfirst : ∀ d ∈ first, p d = false := ih (hsplit ▸ List.mem_cons_self ..)
        simpa [hc] using hfirst
      · exact ih (hsplit ▸ List.mem_cons_of_mem _ h)

/-! ### Words -/

lemma words_append_blank {c : Char} (hc : isBlank c = true) (as bs : List Char) :
    words (as ++ c :: bs) = words as ++ words bs := by
  unfold words
  rw [List.splitOnP_append_cons as bs hc, List.filter_append]

lemma words_of_letters {w : List Char} (hne : w ≠ []) (h : ∀ c ∈ w, isBlank c = false) :
    words w = [w] := by
  rw [words, List.splitOnP_eq_singleton h]
  simp [hne]

def IsWord (w : List Char) : Prop := w ≠ [] ∧ ∀ c ∈ w, isBlank c = false

instance (w : List Char) : Decidable (IsWord w) :=
  decidable_of_iff (w ≠ [] ∧ w.all (!isBlank ·) = true) (by simp [IsWord])

lemma unblank_of_mem_words {cs w : List Char} (h : w ∈ words cs) : ∀ c ∈ w, isBlank c = false :=
  not_of_mem_splitOnP (List.mem_of_mem_filter h)

lemma words_intercalate {ws : List (List Char)} (h : ∀ w ∈ ws, IsWord w) :
    words ([' '].intercalate ws) = ws := by
  induction ws with
  | nil => rfl
  | cons w ws ih =>
    obtain ⟨hne, hletters⟩ := h w (by simp)
    have hrest := ih fun v hv => h v (by simp [hv])
    rcases ws with _ | ⟨v, ws⟩
    · rw [List.intercalate_singleton, words_of_letters hne hletters]
    · rw [List.intercalate_cons_cons, List.append_assoc, List.singleton_append,
        words_append_blank (by decide), words_of_letters hne hletters, hrest]
      rfl

lemma words_blanks_append {bs : List Char} (h : ∀ c ∈ bs, isBlank c = true) (cs : List Char) :
    words (bs ++ cs) = words cs := by
  induction bs with
  | nil => rfl
  | cons c bs ih =>
    have hc : words (c :: (bs ++ cs)) = words (bs ++ cs) := words_append_blank (h c (by simp)) [] _
    rw [List.cons_append, hc, ih fun d hd => h d (by simp [hd])]

lemma words_word_append {w after : List Char} (hw : IsWord w)
    (h : ∀ c ∈ after.head?, isBlank c = true) : words (w ++ after) = w :: words after := by
  have hword := words_of_letters hw.1 hw.2
  rcases after with _ | ⟨c, later⟩
  · rw [List.append_nil, hword]
    rfl
  · have hc : isBlank c = true := h c rfl
    have hlater : words (c :: later) = words later := words_append_blank hc [] later
    rw [words_append_blank hc, hword, hlater]
    rfl

lemma blank_or_first_word (cs : List Char) : (∀ c ∈ cs, isBlank c = true) ∨
    ∃ before w after, (∀ c ∈ before, isBlank c = true) ∧ IsWord w ∧
      (∀ c ∈ after.head?, isBlank c = true) ∧ cs = before ++ (w ++ after) := by
  induction cs with
  | nil => simp
  | cons c cs ih =>
    cases hc : isBlank c with
    | true =>
      rcases ih with hblank | ⟨before, w, after, hbefore, hw, hafter, rfl⟩
      · exact .inl (by simpa [hc] using hblank)
      · exact .inr ⟨c :: before, w, after, by simpa [hc] using hbefore, hw, hafter, rfl⟩
    | false =>
      have hone : IsWord [c] := ⟨by simp, by simpa using hc⟩
      right
      rcases ih with hblank | ⟨_ | ⟨d, before⟩, w, after, hbefore, hw, hafter, rfl⟩
      · exact ⟨[], [c], cs, by simp, hone, fun d hd => hblank d (List.mem_of_head? hd), rfl⟩
      · exact ⟨[], c :: w, after, by simp, ⟨by simp, by simpa [hc] using hw.2⟩, hafter, rfl⟩
      · exact ⟨[], [c], _, by simp, hone, fun e he => hbefore e (by simp_all), rfl⟩

lemma words_of_blanks {bs : List Char} (h : ∀ c ∈ bs, isBlank c = true) : words bs = [] := by
  simpa [words] using words_blanks_append h []

lemma words_append_blanks {bs : List Char} (h : ∀ c ∈ bs, isBlank c = true) (cs : List Char) :
    words (cs ++ bs) = words cs := by
  rcases bs with _ | ⟨c, bs⟩
  · rw [List.append_nil]
  · have hrest : words bs = [] := words_of_blanks fun d hd => h d (by simp [hd])
    rw [words_append_blank (h c (by simp)), hrest, List.append_nil]

lemma words_eq_singleton_iff {cs w : List Char} : words cs = [w] ↔
    ∃ before after, (∀ c ∈ before ++ after, isBlank c = true) ∧ IsWord w ∧
      cs = before ++ (w ++ after) := by
  constructor
  · intro h
    rcases blank_or_first_word cs with hblank | ⟨before, v, after, hbefore, hv, hafter, rfl⟩
    · simp [words_of_blanks hblank] at h
    · rw [words_blanks_append hbefore, words_word_append hv hafter, List.cons.injEq] at h
      obtain ⟨rfl, hrest⟩ := h
      refine ⟨before, after, ?_, hv, rfl⟩
      rcases blank_or_first_word after with hblank | ⟨bs, u, cs, hbs, hu, hcs, rfl⟩
      · intro c hc
        exact (List.mem_append.1 hc).elim (hbefore c) (hblank c)
      · rw [words_blanks_append hbs, words_word_append hu hcs] at hrest
        simp at hrest
  · rintro ⟨before, after, hblank, hw, rfl⟩
    have hafter : ∀ c ∈ after, isBlank c = true := fun c hc => hblank c (by simp [hc])
    rw [words_blanks_append fun c hc => hblank c (by simp [hc]),
      words_word_append hw fun c hc => hafter c (List.mem_of_head? hc), words_of_blanks hafter]

lemma mem_of_mem_intercalate {sep c : Char} {pieces : List (List Char)}
    (h : c ∈ [sep].intercalate pieces) : c = sep ∨ ∃ piece ∈ pieces, c ∈ piece := by
  induction pieces with
  | nil => simp at h
  | cons piece pieces ih =>
    rcases pieces with _ | ⟨next, pieces⟩
    · exact .inr ⟨piece, by simp, by simpa using h⟩
    · rw [List.intercalate_cons_cons, List.mem_append, List.mem_append, List.mem_singleton] at h
      rcases h with (h | h) | h
      · exact .inr ⟨piece, by simp, h⟩
      · exact .inl h
      · rcases ih h with h | ⟨p, hp, h⟩
        · exact .inl h
        · exact .inr ⟨p, by simp [hp], h⟩

lemma isWord_intercalate {sep : Char} (hsep : isBlank sep = false) {ws : List (List Char)}
    (hne : ws ≠ []) (h : ∀ w ∈ ws, IsWord w) : IsWord ([sep].intercalate ws) := by
  constructor
  · obtain ⟨w, rest, rfl⟩ := List.exists_cons_of_ne_nil hne
    have hw : w ≠ [] := (h w (by simp)).1
    rcases rest with _ | ⟨v, rest⟩
    · simpa using hw
    · simp [List.intercalate_cons_cons, hw]
  · intro c hc
    rcases mem_of_mem_intercalate hc with rfl | ⟨w, hw, hc⟩
    · exact hsep
    · exact (h w hw).2 c hc

lemma isLineBreak_of_not_isBlank {c : Char} (h : isBlank c = false) : isLineBreak c = false := by
  rw [← Bool.not_eq_true]
  intro hbreak
  simp [isBlank_of_isLineBreak hbreak] at h

lemma isLineBreak_of_mem_intercalate {ws : List (List Char)} (h : ∀ w ∈ ws, IsWord w) :
    ∀ c ∈ [' '].intercalate ws, isLineBreak c = false := by
  intro c hc
  rcases mem_of_mem_intercalate hc with rfl | ⟨w, hw, hc⟩
  · decide
  · exact isLineBreak_of_not_isBlank ((h w hw).2 c hc)

lemma words_letters_append {v : List Char} (hne : v ≠ []) (h : ∀ c ∈ v, isBlank c = false)
    (rest : List Char) : ∃ w ws, words (v ++ rest) = w :: ws ∧ v <+: w := by
  have hword : IsWord (v ++ rest.takeWhile fun c => !isBlank c) := by
    refine ⟨by simp [hne], fun c hc => ?_⟩
    rcases List.mem_append.1 hc with hc | hc
    · exact h c hc
    · simpa using List.mem_takeWhile_imp hc
  have hafter : ∀ c ∈ (rest.dropWhile fun c => !isBlank c).head?, isBlank c = true := by
    intro c hc
    have hhead := List.head?_dropWhile_not (fun c => !isBlank c) rest
    rw [Option.mem_def.1 hc] at hhead
    simpa using hhead
  have hwords := words_word_append hword hafter
  rw [List.append_assoc, List.takeWhile_append_dropWhile] at hwords
  exact ⟨_, _, hwords, List.prefix_append ..⟩

lemma words_of_prefix {q line : List Char} (h : q <+: line) :
    ∃ n, words q = (words line).take n ∨
      ∃ v w, v ≠ [] ∧ v <+: w ∧ (words line)[n]? = some w ∧
        words q = (words line).take n ++ [v] := by
  obtain ⟨rest, rfl⟩ := h
  -- the cut text is what ends in a blank, and then the letters that the cut left of a word
  have hq : q.rdropWhile (fun c => !isBlank c) ++ q.rtakeWhile (fun c => !isBlank c) = q :=
    List.rdropWhile_append_rtakeWhile ..
  have hletters : ∀ c ∈ q.rtakeWhile (fun c => !isBlank c), isBlank c = false := fun c hc => by
    simpa using List.mem_rtakeWhile_imp hc
  have hlast (hne : q.rdropWhile (fun c => !isBlank c) ≠ []) :=
    List.rdropWhile_last_not (fun c => !isBlank c) q hne
  generalize q.rdropWhile (fun c => !isBlank c) = xs at hq hlast
  generalize q.rtakeWhile (fun c => !isBlank c) = v at hq hletters
  subst hq
  have hxs (bs : List Char) : words (xs ++ bs) = words xs ++ words bs := by
    rcases List.eq_nil_or_concat xs with rfl | ⟨as, c, rfl⟩
    · simp [words]
    · have hc : isBlank c = true := by simpa using hlast (by simp)
      rw [List.concat_eq_append, List.append_assoc, List.singleton_append,
        words_append_blank hc, words_append_blank hc]
      simp [words]
  refine ⟨(words xs).length, ?_⟩
  rw [List.append_assoc, hxs, hxs]
  by_cases hv : v = []
  · left
    simp [hv, words]
  · right
    obtain ⟨w, ws, hwords, hprefix⟩ := words_letters_append hv hletters rest
    refine ⟨v, w, hv, hprefix, ?_, ?_⟩
    · simp [hwords]
    · rw [words_of_letters hv hletters, List.take_left]

/-! ### Lines -/

lemma joinReturns_eq_self {cs : List Char} (h : '\r' ∉ cs) : joinReturns cs = cs := by
  fun_induction joinReturns cs with
  | case1 rest ih => simp at h
  | case2 c rest hne ih => rw [ih fun hc => h (List.mem_cons_of_mem _ hc)]
  | case3 => rfl

def Unbroken (line : List Char) : Prop := ∀ c ∈ line, isLineBreak c = false

instance (line : List Char) : Decidable (Unbroken line) :=
  decidable_of_iff (line.all (!isLineBreak ·) = true) (by simp [Unbroken])

/-- The text of lines, each with a line feed after it. -/
def ofLines (ls : List (List Char)) : List Char := ls.flatMap fun line => line ++ ['\n']

lemma ofLines_cons (line : List Char) (ls : List (List Char)) :
    ofLines (line :: ls) = line ++ '\n' :: ofLines ls := by
  simp [ofLines]

lemma splitOnP_ofLines_append {ls : List (List Char)} {last : List Char}
    (h : ∀ line ∈ ls, Unbroken line)
    (hlast : Unbroken last) :
    (ofLines ls ++ last).splitOnP isLineBreak = ls ++ [last] := by
  induction ls with
  | nil => exact List.splitOnP_eq_singleton hlast
  | cons line ls ih =>
    rw [ofLines_cons, List.append_assoc, List.cons_append,
      List.splitOnP_append_cons_of_forall_mem (h line (by simp)) '\n' rfl,
      ih fun l hl => h l (by simp [hl])]
    rfl

lemma lines_ofLines_append {ls : List (List Char)} {last : List Char}
    (h : ∀ line ∈ ls, Unbroken line)
    (hlast : Unbroken last) :
    lines (ofLines ls ++ last) = ls ++ if last = [] then [] else [last] := by
  have hreturn : '\r' ∉ ofLines ls ++ last := by
    intro hr
    rcases List.mem_append.1 hr with hr | hr
    · obtain ⟨line, hline, hc⟩ := List.mem_flatMap.1 hr
      rcases List.mem_append.1 hc with hc | hc
      · exact absurd (h line hline _ hc) (by decide)
      · simp at hc
    · exact absurd (hlast _ hr) (by decide)
  rw [lines, joinReturns_eq_self hreturn, splitOnP_ofLines_append h hlast]
  by_cases hne : last = []
  · simp [hne]
  · simp [hne]

lemma lines_ofLines {ls : List (List Char)} (h : ∀ line ∈ ls, Unbroken line) :
    lines (ofLines ls) = ls := by
  simpa using lines_ofLines_append h (by decide : Unbroken [])

lemma unbroken_of_mem_lines {cs line : List Char} (h : line ∈ lines cs) : Unbroken line := by
  rw [lines] at h
  split at h
  · exact not_of_mem_splitOnP ((List.dropLast_sublist _).subset h)
  · exact not_of_mem_splitOnP h

lemma exists_lines_eq_insert {t line : List Char} {above below : List (List Char)}
    (h : lines t = above ++ below) (hline : Unbroken line) :
    ∃ t', lines t' = above ++ line :: below := by
  have hold : ∀ l ∈ above ++ below, Unbroken l := fun l hl => unbroken_of_mem_lines (h ▸ hl)
  refine ⟨ofLines (above ++ line :: below), lines_ofLines fun l hl => ?_⟩
  rw [List.mem_append, List.mem_cons] at hl
  rcases hl with hl | rfl | hl
  · exact hold l (List.mem_append_left _ hl)
  · exact hline
  · exact hold l (List.mem_append_right _ hl)

lemma exists_of_prefix_ofLines {ls : List (List Char)} {p : List Char} (h : p <+: ofLines ls) :
    ∃ k ≤ ls.length, ∃ q, p = ofLines (ls.take k) ++ q ∧
      (q = [] ∨ ∃ line, ls[k]? = some line ∧ q <+: line) := by
  induction ls generalizing p with
  | nil =>
    obtain rfl : p = [] := by simpa [ofLines] using h
    exact ⟨0, le_refl _, [], rfl, .inl rfl⟩
  | cons line ls ih =>
    rw [ofLines_cons, ← List.singleton_append, ← List.append_assoc] at h
    rcases Nat.lt_or_ge line.length p.length with hlen | hlen
    · -- the cut comes after the first line
      obtain ⟨p, rfl⟩ : (line ++ ['\n']) <+: p :=
        List.prefix_of_prefix_length_le (List.prefix_append ..) h (by simp; omega)
      obtain ⟨k, hk, q, rfl, hq⟩ := ih ((List.prefix_append_right_inj _).1 h)
      refine ⟨k + 1, by simpa using hk, q, ?_, by simpa using hq⟩
      rw [List.take_succ_cons, ofLines_cons]
      simp
    · have hp : p <+: line := by
        rw [List.append_assoc] at h
        exact List.prefix_of_prefix_length_le h (List.prefix_append ..) hlen
      exact ⟨0, by simp, p, rfl, .inr ⟨line, rfl, hp⟩⟩

end RouterAgent.Text
