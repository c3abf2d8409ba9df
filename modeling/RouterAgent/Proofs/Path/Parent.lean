import RouterAgent.Path
import RouterAgent.Proofs.Text.Trim

/-!
The directory of a path: what stands before the last slash of a normal path is the text of its
parent.
-/

namespace RouterAgent

open RouterAgent.Text

namespace Path

def IsName (name : List Char) : Prop := name ≠ [] ∧ '/' ∉ name

lemma isName_of_mem_enter {location : Location} {name : List Char}
    (h : ∀ n ∈ location, IsName n) (hname : '/' ∉ name) : ∀ n ∈ enter location name, IsName n := by
  unfold enter
  split
  · exact h
  · next hne =>
    split
    · exact fun n hn => h n (List.dropLast_subset _ hn)
    · intro n hn
      rcases List.mem_append.1 hn with hn | hn
      · exact h n hn
      · obtain rfl : n = name := by simpa using hn
        exact ⟨fun hnil => hne (.inl hnil), hname⟩

lemma isName_of_mem_ofText (s : String) : ∀ n ∈ (ofText s).location, IsName n := by
  have hpieces : ∀ name ∈ s.toList.splitOn '/', '/' ∉ name := by
    intro name hname hslash
    rw [List.splitOn_eq_splitOnP] at hname
    simpa using not_of_mem_splitOnP hname '/' hslash
  have hfold (pieces : List (List Char)) (location : Location)
      (hp : ∀ name ∈ pieces, '/' ∉ name) (hl : ∀ n ∈ location, IsName n) :
      ∀ n ∈ pieces.foldl enter location, IsName n := by
    induction pieces generalizing location with
    | nil => exact hl
    | cons name pieces ih =>
      exact ih _ (fun n hn => hp n (by simp [hn])) (isName_of_mem_enter hl (hp name (by simp)))
  exact hfold _ [] hpieces (by simp)

lemma intercalate_concat {sep : List Char} {names : List (List Char)} (hne : names ≠ [])
    (name : List Char) :
    sep.intercalate (names ++ [name]) = sep.intercalate names ++ sep ++ name := by
  induction names with
  | nil => exact absurd rfl hne
  | cons first names ih =>
    rcases names with _ | ⟨second, names⟩
    · simp
    · have hrest := ih (by simp)
      rw [List.cons_append] at hrest ⊢
      rw [List.cons_append, List.intercalate_cons_cons, hrest, List.intercalate_cons_cons]
      simp

lemma directoryPart_slash (stem : List Char) {name : List Char} (h : '/' ∉ name) :
    directoryPart (String.ofList (stem ++ ['/'] ++ name)) =
      String.ofList (if trimRightWhere (· = '/') stem = [] then stem ++ ['/']
        else trimRightWhere (· = '/') stem) := by
  have hname : ∀ c ∈ name, decide (c ≠ '/') = true := fun c hc =>
    decide_eq_true fun heq => h (heq ▸ hc)
  have hhead : trimRightWhere (· ≠ '/') (stem ++ ['/'] ++ name) = stem ++ ['/'] := by
    rw [trimRightWhere_append hname, trimRightWhere_concat (by simp)]
  have hbare : trimRightWhere (· = '/') (stem ++ ['/']) = trimRightWhere (· = '/') stem :=
    trimRightWhere_append (by simp)
  simp only [directoryPart, String.toList_ofList, hhead, hbare, List.isEmpty_iff]

/-- **Before the last slash** of a normal path stands its parent. -/
lemma directoryPart_text {p : Path} (h : ∀ n ∈ p.location, IsName n) :
    directoryPart p.text = p.parent.text := by
  obtain ⟨doubled, location⟩ := p
  obtain ⟨lead, htext, hslash⟩ : ∃ lead : List Char,
      (∀ names, (⟨doubled, names⟩ : Path).text =
        String.ofList (lead ++ ['/'] ++ ['/'].intercalate names)) ∧
      trimRightWhere (· = '/') lead = [] := by
    cases doubled
    · exact ⟨[], fun _ => rfl, rfl⟩
    · exact ⟨['/'], fun _ => rfl, rfl⟩
  change directoryPart (Path.text ⟨doubled, location⟩) = Path.text ⟨doubled, location.dropLast⟩
  rw [htext, htext]
  rcases List.eq_nil_or_concat location with rfl | ⟨names, name, rfl⟩
  · rw [List.dropLast_nil, List.intercalate_nil, directoryPart_slash lead (by simp), if_pos hslash,
      List.append_nil]
  · rw [List.concat_eq_append] at h ⊢
    have hname : '/' ∉ name := (h name (by simp)).2
    rw [List.dropLast_concat]
    rcases List.eq_nil_or_concat names with rfl | ⟨others, above, rfl⟩
    · -- the path names an entry of the root
      rw [List.nil_append, List.intercalate_singleton, directoryPart_slash lead hname,
        if_pos hslash, List.intercalate_nil, List.append_nil]
    · rw [List.concat_eq_append] at h ⊢
      obtain ⟨front, hfront⟩ :
          ∃ front, ['/'].intercalate (others ++ [above]) = front ++ above := by
        by_cases hothers : others = []
        · exact ⟨[], by simp [hothers]⟩
        · exact ⟨_, intercalate_concat hothers above⟩
      obtain ⟨hne, hmem⟩ := h above (by simp)
      obtain ⟨start, c, rfl⟩ := (List.eq_nil_or_concat above).resolve_left hne
      have hc : ¬ decide (c = '/') = true := by
        simpa using fun heq : c = '/' => hmem (by simp [heq])
      have hbare : trimRightWhere (· = '/') (lead ++ ['/'] ++ (front ++ start.concat c)) =
          lead ++ ['/'] ++ (front ++ start.concat c) := by
        rw [List.concat_eq_append, ← List.append_assoc, ← List.append_assoc,
          trimRightWhere_concat hc]
      have hdeep := directoryPart_slash (lead ++ ['/'] ++ (front ++ start.concat c)) hname
      rw [hbare, if_neg (by simp)] at hdeep
      rw [intercalate_concat (by simp), hfront, ← hdeep]
      simp only [List.append_assoc]

def absolute (s : String) : String := (ofText s).text

lemma directoryPart_absolute (s : String) :
    directoryPart (absolute s) = (ofText s).parent.text :=
  directoryPart_text (isName_of_mem_ofText s)

end Path

end RouterAgent
