import RouterAgent.Lease.Isc
import RouterAgent.Proofs.Text.Trim

/-!
Lines of lease databases without the inside of their quoted strings.
-/

namespace RouterAgent.Lease.Isc

open RouterAgent.Text

/-! ### Quoted strings -/

lemma exists_of_afterQuote {cs rest : List Char} (h : afterQuote cs = some rest) :
    ∃ body, cs = body ++ '"' :: rest := by
  fun_induction afterQuote cs with
  | case1 => simp at h
  | case2 rest' =>
    obtain rfl : rest' = rest := by simpa using h
    exact ⟨[], rfl⟩
  | case3 => simp at h
  | case4 c cs ih =>
    obtain ⟨body, rfl⟩ := ih h
    exact ⟨'\\' :: c :: body, rfl⟩
  | case5 c cs _ _ _ ih =>
    obtain ⟨body, rfl⟩ := ih h
    exact ⟨c :: body, rfl⟩

@[simp] lemma bare_nil : bare [] = [] := by rw [bare]

lemma bare_string {cs rest : List Char} (h : afterQuote cs = some rest) :
    bare ('"' :: cs) = '"' :: '"' :: bare rest := by
  rw [bare]
  split
  · next later hlater =>
    rw [h, Option.some.injEq] at hlater
    rw [hlater]
  · next hnone =>
    rw [h] at hnone
    exact absurd hnone (by simp)

lemma bare_open {cs : List Char} (h : afterQuote cs = none) : bare ('"' :: cs) = '"' :: bare cs := by
  rw [bare]
  split
  · next later hlater =>
    rw [h] at hlater
    exact absurd hlater (by simp)
  · rfl

lemma bare_cons {c : Char} (hc : c ≠ '"') (cs : List Char) : bare (c :: cs) = c :: bare cs := by
  rw [bare]
  exact fun h => hc h

lemma bare_append {as : List Char} (h : '"' ∉ as) (cs : List Char) :
    bare (as ++ cs) = as ++ bare cs := by
  induction as with
  | nil => rfl
  | cons c as ih =>
    rw [List.mem_cons, not_or] at h
    rw [List.cons_append, bare_cons (Ne.symm h.1), ih h.2, List.cons_append]

lemma bare_of_not_mem {cs : List Char} (h : '"' ∉ cs) : bare cs = cs := by
  simpa using bare_append h []

lemma head?_bare (cs : List Char) : (bare cs).head? = cs.head? := by
  rcases cs with _ | ⟨c, cs⟩
  · rw [bare_nil]
  · by_cases hc : c = '"'
    · subst hc
      cases h : afterQuote cs with
      | some rest => rw [bare_string h]; rfl
      | none => rw [bare_open h]; rfl
    · rw [bare_cons hc]
      rfl

lemma getLast?_bare {cs : List Char} {c : Char} (hc : c ≠ '"') (h : cs.getLast? = some c) :
    (bare cs).getLast? = some c := by
  induction hlen : cs.length using Nat.strong_induction_on generalizing cs with
  | _ n ih =>
    rcases cs with _ | ⟨d, cs⟩
    · simp at h
    · by_cases hd : d = '"'
      · subst hd
        have hcs : cs ≠ [] := by
          rintro rfl
          exact hc (by simpa using h.symm)
        have hlast : cs.getLast? = some c := by
          rwa [List.getLast?_cons_of_ne_nil hcs] at h
        cases hquote : afterQuote cs with
        | none =>
          have hrest := ih cs.length (by simp [← hlen]) hlast rfl
          rw [bare_open hquote, List.getLast?_cons_of_ne_nil (by rintro h'; simp [h'] at hrest)]
          exact hrest
        | some rest =>
          obtain ⟨body, rfl⟩ := exists_of_afterQuote hquote
          have hne : rest ≠ [] := by
            rintro rfl
            exact hc (by simpa using hlast.symm)
          have hend : rest.getLast? = some c := by
            rwa [List.getLast?_append_cons, List.getLast?_cons_of_ne_nil hne] at hlast
          have hrest := ih rest.length (by simp [← hlen]; omega) hend rfl
          rw [bare_string hquote, List.getLast?_cons_cons,
            List.getLast?_cons_of_ne_nil (by rintro h'; simp [h'] at hrest)]
          exact hrest
      · rw [bare_cons hd]
        rcases cs with _ | ⟨e, cs⟩
        · simpa using h
        · have hrest := ih (e :: cs).length (by simp [← hlen]) (by simpa using h) rfl
          rw [List.getLast?_cons_of_ne_nil (by rintro h'; simp [h'] at hrest)]
          exact hrest

lemma bare_eq_brace_iff {cs : List Char} : bare cs = ['}'] ↔ cs = ['}'] := by
  constructor
  · intro h
    have hhead : cs.head? = some '}' := by rw [← head?_bare, h]; rfl
    obtain ⟨rest, rfl⟩ := List.head?_eq_some_iff.1 hhead
    rw [bare_cons (by decide), List.cons.injEq] at h
    have hrest : rest.head? = none := by rw [← head?_bare, h.2]; rfl
    rw [List.head?_eq_none_iff.1 hrest]
  · rintro rfl
    exact bare_of_not_mem (by decide)

/-! ### Braces and headers -/

lemma hasBrace_of_head? {cs : List Char} (h : cs.head? = some '}') : hasBrace (bare cs) = true := by
  have hmem : '}' ∈ bare cs := List.mem_of_head? (by rw [head?_bare, h])
  simp [hasBrace, hmem]

lemma exists_of_header? {cs : List Char} {ip : String} (h : header? cs = some ip) :
    ∃ middle, cs = "lease".toList ++ (middle ++ ['{']) := by
  unfold header? at h
  split at h
  · next hkeyword =>
    obtain ⟨htake, hlast⟩ := hkeyword
    rcases List.eq_nil_or_concat (cs.drop 5) with hnil | ⟨middle, c, hmiddle⟩
    · simp [hnil] at h
    · have hcs : cs = "lease".toList ++ (middle ++ [c]) := by
        rw [← htake, ← List.concat_eq_append, ← hmiddle, List.take_append_drop]
      rw [hcs, ← List.append_assoc, List.getLast?_concat, Option.some.injEq] at hlast
      exact ⟨middle, hlast ▸ hcs⟩
  · simp at h

lemma head?_of_header? {cs : List Char} {ip : String} (h : header? (bare cs) = some ip) :
    cs.head? = some 'l' := by
  obtain ⟨middle, hbare⟩ := exists_of_header? h
  rw [← head?_bare, hbare]
  rfl

lemma hasBrace_of_header? {cs : List Char} {ip : String} (h : header? cs = some ip) :
    hasBrace cs = true := by
  obtain ⟨middle, rfl⟩ := exists_of_header? h
  simp [hasBrace]

/-- A line opens a lease block: between the keyword and the brace it has the network address, with
blanks around it and at least one before it. -/
def Opens (line ip : List Char) : Prop :=
  ∃ c before after, (∀ d ∈ c :: (before ++ after), isBlank d = true) ∧ IsWord ip ∧
    bare (trim line) = "lease".toList ++ (c :: (before ++ (ip ++ after)) ++ ['{'])

lemma header?_eq_ite (cs : List Char) : header? ("lease".toList ++ (cs ++ ['{'])) =
    match cs with
    | c :: rest =>
      if isBlank c then
        match words rest with
        | [ip] => some (String.ofList ip)
        | _ => none
      else none
    | [] => none := by
  have hlength : "lease".toList.length = 5 := rfl
  have hlast : ("lease".toList ++ (cs ++ ['{'])).getLast? = some '{' := by
    rw [← List.append_assoc, List.getLast?_concat]
  rw [header?, List.take_left' hlength, List.drop_left' hlength, List.dropLast_concat]
  exact if_pos ⟨rfl, hlast⟩

lemma header?_eq_some_iff {line : List Char} {ip : String} :
    header? (bare (trim line)) = some ip ↔ Opens line ip.toList := by
  constructor
  · intro h
    obtain ⟨middle, hbare⟩ := exists_of_header? h
    rw [hbare, header?_eq_ite] at h
    split at h
    · next c rest =>
      split at h
      · next hc =>
        split at h
        · next w hwords =>
          obtain rfl : String.ofList w = ip := by simpa using h
          obtain ⟨before, after, hblank, hw, rfl⟩ := words_eq_singleton_iff.1 hwords
          refine ⟨c, before, after, by simpa [hc] using hblank, ?_, ?_⟩
          · simpa using hw
          · simpa using hbare
        · simp at h
      · simp at h
    · simp at h
  · rintro ⟨c, before, after, hblank, hip, hbare⟩
    have hc : isBlank c = true := hblank c (by simp)
    have hwords : words (before ++ (ip.toList ++ after)) = [ip.toList] :=
      words_eq_singleton_iff.2 ⟨before, after, fun d hd => hblank d (by simp [hd]), hip, rfl⟩
    rw [hbare, header?_eq_ite]
    simp [hc, hwords]

end RouterAgent.Lease.Isc
