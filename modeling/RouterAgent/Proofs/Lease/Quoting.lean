import RouterAgent.Proofs.Lease.Database
import RouterAgent.Proofs.Lease.Slot
import RouterAgent.Proofs.Text.Lines

/-!
Quoted strings in lease databases.

What stands in a quoted string is chosen by a client: braces, semicolons, remarks and keywords may
be in it. Where quotes and backslashes are escaped, the string ends at its own end. So its line is
one statement, and of this statement only the keyword decides what it changes.
-/

namespace RouterAgent.Lease.Isc

open RouterAgent.Text

/-! ### Escaped texts -/

/-- A text in which quotes and backslashes stand only in pairs of a backslash and a character. -/
inductive Escaped : List Char → Prop where
  | nil : Escaped []
  | plain {c : Char} {cs : List Char} (notQuote : c ≠ '"') (notSlash : c ≠ '\\')
      (rest : Escaped cs) : Escaped (c :: cs)
  | pair (c : Char) {cs : List Char} (rest : Escaped cs) : Escaped ('\\' :: c :: cs)

lemma afterQuote_cons {c : Char} (notQuote : c ≠ '"') (notSlash : c ≠ '\\') (cs : List Char) :
    afterQuote (c :: cs) = afterQuote cs := by
  rw [afterQuote]
  · exact notQuote
  · exact fun h _ => notSlash h
  · exact fun _ _ h _ => notSlash h

lemma Escaped.afterQuote_append {body : List Char} (h : Escaped body) (rest : List Char) :
    afterQuote (body ++ '"' :: rest) = some rest := by
  induction h with
  | nil => rfl
  | plain notQuote notSlash _ ih =>
    rw [List.cons_append, afterQuote_cons notQuote notSlash, ih]
  | pair c _ ih => exact ih

lemma escaped_iff {body : List Char} : Escaped body ↔ afterQuote (body ++ ['"']) = some [] := by
  refine ⟨fun h => h.afterQuote_append [], fun h => ?_⟩
  fun_induction afterQuote body with
  | case1 => exact .nil
  | case2 rest => simp [afterQuote] at h
  | case3 => simp [afterQuote] at h
  | case4 c rest ih => exact .pair c (ih h)
  | case5 c rest hquote hlone hpair ih =>
    have hslash : c ≠ '\\' := by
      rintro rfl
      cases rest with
      | nil => exact hlone rfl rfl
      | cons d later => exact hpair d later rfl rfl
    rw [List.cons_append, afterQuote_cons hquote hslash] at h
    exact .plain hquote hslash (ih h)

instance (body : List Char) : Decidable (Escaped body) := decidable_of_iff _ escaped_iff.symm

/-! ### Lines with a quoted string -/

/-- A word that a statement may begin with: there is no quote and no brace in it. -/
def IsToken (w : List Char) : Prop := IsWord w ∧ ∀ c ∈ w, c ≠ '"' ∧ c ≠ '{' ∧ c ≠ '}'

instance (w : List Char) : Decidable (IsToken w) :=
  decidable_of_iff (IsWord w ∧ w.all (fun c => c ≠ '"' ∧ c ≠ '{' ∧ c ≠ '}') = true)
    (by simp [IsToken])

def quoting (word body : List Char) : List Char := word ++ ' ' :: ('"' :: (body ++ ['"']) ++ [';'])

/-- But for blanks at its ends, a line is that of a word and an escaped text in quotes. -/
structure Quotes (line word body : List Char) : Prop where
  isToken : IsToken word
  escaped : Escaped body
  trim_line : trim line = quoting word body

lemma bare_quoting {word body : List Char} (hword : IsToken word) (hbody : Escaped body) :
    bare (quoting word body) = word ++ [' ', '"', '"', ';'] := by
  have hplain : '"' ∉ word := fun h => (hword.2 _ h).1 rfl
  have hstring : bare ('"' :: (body ++ '"' :: [';'])) = ['"', '"', ';'] := by
    rw [bare_string (hbody.afterQuote_append [';']), bare_cons (by decide), bare_nil]
  have hquoting : quoting word body = word ++ ' ' :: '"' :: (body ++ '"' :: [';']) := by
    simp [quoting]
  rw [hquoting, bare_append hplain, bare_cons (by decide), hstring]

lemma trim_quoting {word body : List Char} (h : IsToken word) :
    trim (quoting word body) = quoting word body := by
  obtain ⟨c, rest, rfl⟩ := List.exists_cons_of_ne_nil h.1.1
  have hc : isBlank c = false := h.1.2 c (by simp)
  have hends : quoting (c :: rest) body = c :: ((rest ++ ' ' :: '"' :: (body ++ ['"'])) ++ [';']) := by
    simp [quoting]
  rw [hends]
  exact trim_cons_concat hc (by decide) _

lemma unbroken_quoting {word body : List Char} (hword : IsToken word) (hbody : Unbroken body) :
    Unbroken (quoting word body) := by
  intro c hc
  simp only [quoting, List.mem_append, List.mem_cons, List.not_mem_nil, or_false] at hc
  rcases hc with hc | rfl | (rfl | hc | rfl) | rfl
  · exact isLineBreak_of_not_isBlank (hword.1.2 c hc)
  · decide
  · decide
  · exact hbody c hc
  · decide
  · decide

namespace Quotes

variable {line word body : List Char}

lemma unbraced (h : Quotes line word body) : hasBrace (bare (trim line)) = false := by
  have hopen : '{' ∉ word := fun hc => (h.isToken.2 _ hc).2.1 rfl
  have hclose : '}' ∉ word := fun hc => (h.isToken.2 _ hc).2.2 rfl
  rw [h.trim_line, bare_quoting h.isToken h.escaped]
  simp [hasBrace, hopen, hclose]

def statement (h : Quotes line word body) : Statement where
  line
  keyword := word
  value := '"' :: (body ++ ['"'])
  more := 0
  isWord_keyword := h.isToken.1
  getLast?_value := by rw [← List.cons_append, List.getLast?_concat]; decide
  trim_line := h.trim_line
  unbraced := h.unbraced

lemma isInner (h : Quotes line word body) : IsInner line := .inr h.unbraced

lemma after_line (h : Quotes line word body) (st : Statements) : st.after line =
    { hardware :=
        if String.ofList word = "hardware" then trim ('"' :: (body ++ ['"'])) else st.hardware
      hostname :=
        if String.ofList word = "client-hostname" then trim ('"' :: (body ++ ['"']))
        else st.hostname
      ends := if String.ofList word = "ends" then trim ('"' :: (body ++ ['"'])) else st.ends } :=
  h.statement.after_line st

lemma after_eq (h : Quotes line word body)
    (hword : String.ofList word ∉ ["hardware", "client-hostname", "ends"]) (st : Statements) :
    st.after line = st := by
  simp only [List.mem_cons, List.not_mem_nil, or_false, not_or] at hword
  obtain ⟨hhardware, hhostname, hends⟩ := hword
  rw [h.after_line, if_neg hhardware, if_neg hhostname, if_neg hends]

end Quotes

/-! ### Statements that differ in the name -/

namespace Statements

/-- Two rows of statements that say the same, but for the name. -/
def Alike (s t : Statements) : Prop := s.hardware = t.hardware ∧ s.ends = t.ends

lemma Alike.after {s t : Statements} (h : Alike s t) (line : List Char) :
    Alike (s.after line) (t.after line) := by
  rw [Statements.after, Statements.after]
  split
  · exact h
  · simp only [Statements.read]
    split_ifs
    · exact ⟨rfl, h.2⟩
    · exact h
    · exact ⟨h.1, rfl⟩
    · exact h

lemma Alike.foldl {s t : Statements} (h : Alike s t) (ls : List (List Char)) :
    Alike (ls.foldl Statements.after s) (ls.foldl Statements.after t) := by
  induction ls generalizing s t with
  | nil => exact h
  | cons line ls ih => exact ih (h.after line)

lemma Alike.client?_eq {s t : Statements} (h : Alike s t) (source ip : String) :
    t.client? source ip = (s.client? source ip).map fun c =>
      { c with hostname := String.ofList (trimWhere (· = '"') t.hostname) } := by
  rw [Statements.client?, Statements.client?, ← h.1, ← h.2]
  split
  · rw [Option.map_map]
    rfl
  · rfl

lemma Alike.client? {s t : Statements} (h : Alike s t) (source ip : String) :
    Option.Rel (fun c d => d = { c with hostname := d.hostname })
      (s.client? source ip) (t.client? source ip) := by
  rw [h.client?_eq]
  cases s.client? source ip with
  | none => exact .none
  | some c => exact .some rfl

end Statements

lemma Slot.client?_rel (s : Slot) {line₁ line₂ body₁ body₂ : List Char}
    (h₁ : Quotes line₁ "client-hostname".toList body₁)
    (h₂ : Quotes line₂ "client-hostname".toList body₂) (source : String) :
    Option.Rel (fun c d => d = { c with hostname := d.hostname })
      (s.client? source line₁) (s.client? source line₂) := by
  have halike (st : Statements) : (st.after line₁).Alike (st.after line₂) := by
    rw [h₁.after_line, h₂.after_line]
    exact ⟨rfl, rfl⟩
  rw [Slot.client?, Slot.client?, List.foldl_append, List.foldl_append, List.foldl_cons,
    List.foldl_cons]
  exact ((halike _).foldl s.below).client? source s.block.ip

/-- **Quoted strings forge no structure.** A line of a word and a quoted text that is escaped may be
added to an accepted text anywhere. If the word is none of the keywords that matter, the text lists
what it did. Of two names at one place of a lease block, the lists differ at most in the name of the
one client that this block lists. -/
theorem quoted_strings_forge_nothing {source : String} {t : List Char} {listed : List Client}
    (accepted : parse source t = .ok listed) :
    (∀ above below, Text.lines t = above ++ below → ∀ word body, IsToken word → Escaped body →
      Unbroken body → Quotes (quoting word body) word body ∧
        ∃ t', Text.lines t' = above ++ quoting word body :: below) ∧
    (∀ above below, Text.lines t = above ++ below → ∀ line word body, Quotes line word body →
      String.ofList word ∉ ["hardware", "client-hostname", "ends"] →
      ∀ t', Text.lines t' = above ++ line :: below → parse source t' = .ok listed) ∧
    ∀ s : Slot, Text.lines t = s.upper ++ s.lower → ∀ line₁ line₂ body₁ body₂,
      Quotes line₁ "client-hostname".toList body₁ → Quotes line₂ "client-hostname".toList body₂ →
      ∀ t₁ t₂, Text.lines t₁ = s.upper ++ line₁ :: s.lower →
        Text.lines t₂ = s.upper ++ line₂ :: s.lower →
      ∃ r₁ r₂, parse source t₁ = .ok r₁ ∧ parse source t₂ = .ok r₂ ∧
        (r₁ = r₂ ∨ ∃ before c₁ c₂ after, r₁ = before ++ c₁ :: after ∧ r₂ = before ++ c₂ :: after ∧
          s.client? source line₁ = some c₁ ∧ s.client? source line₂ = some c₂ ∧
          c₂ = { c₁ with hostname := c₂.hostname }) := by
  obtain ⟨l, hl⟩ := exists_layout_iff.1 ⟨listed, accepted⟩
  refine ⟨?_, ?_, ?_⟩
  · intro above below h word body hword hbody hunbroken
    exact ⟨⟨hword, hbody, trim_quoting hword⟩,
      exists_lines_eq_insert h (unbroken_quoting hword hunbroken)⟩
  · intro above below h line word body hquotes hword t' h'
    have hloose := isLoose_of_unbraced hquotes.unbraced
    rw [parse_of_added hquotes.isInner hloose (hquotes.after_eq hword) hl h h', accepted]
  · intro s _ line₁ line₂ body₁ body₂ h₁ h₂ t₁ t₂ ht₁ ht₂
    have hrel := s.client?_rel h₁ h₂ source
    exact s.parse_of_rel h₁.isInner h₂.isInner hrel (fun c d halike => by rw [halike]) ht₁ ht₂

def tvSlot : Slot where
  before := []
  block := tvLease.block
  after := []
  above := tvLease.statements.map Statement.line
  below := []
  inside_block := (List.append_nil _).symm

def tvWith (line : List Char) : List Char := ofLines (tvSlot.upper ++ line :: tvSlot.lower)

/-- A name that would close the lease and open another one, if it were not quoted. -/
def forgingName : List Char := "\\\"\x7d lease 10.0.0.2 \x7b".toList

/-- A name that would be a remark, if it were not quoted. -/
def remarkName : List Char := "#;\\\\".toList

theorem quoted_strings_forge_nothing_tv :
    parse "" (tvWith (quoting "uid".toList forgingName)) = parse "" (ofLines tvLease.lines) ∧
    ∃ r₁ r₂, parse "" (tvWith (quoting "client-hostname".toList forgingName)) = .ok r₁ ∧
      parse "" (tvWith (quoting "client-hostname".toList remarkName)) = .ok r₂ ∧
      r₁.map ({ · with hostname := "" }) = r₂.map ({ · with hostname := "" }) := by
  have accepted : parse "" (ofLines tvLease.lines) =
      .ok [⟨"aa:00:00:00:00:01", "10.0.0.1", "t\x7bv", none, ""⟩] := by decide +kernel
  have hlines : Text.lines (ofLines tvLease.lines) = tvSlot.upper ++ tvSlot.lower := by
    decide +kernel
  have hquotes (word body : List Char) (hword : IsToken word) (hbody : Escaped body) :
      Quotes (quoting word body) word body := ⟨hword, hbody, trim_quoting hword⟩
  obtain ⟨-, hadded, hnames⟩ := quoted_strings_forge_nothing accepted
  refine ⟨?_, ?_⟩
  · rw [accepted]
    exact hadded _ _ hlines (quoting "uid".toList forgingName) "uid".toList forgingName
      (hquotes _ _ (by decide) (by decide +kernel)) (by decide) _ (by decide +kernel)
  · have hforging := hquotes "client-hostname".toList forgingName (by decide) (by decide +kernel)
    have hremark := hquotes "client-hostname".toList remarkName (by decide) (by decide +kernel)
    obtain ⟨r₁, r₂, h₁, h₂, hsame⟩ := hnames tvSlot hlines _ _ _ _ hforging hremark
      (tvWith (quoting "client-hostname".toList forgingName))
      (tvWith (quoting "client-hostname".toList remarkName)) (by decide +kernel) (by decide +kernel)
    refine ⟨r₁, r₂, h₁, h₂, ?_⟩
    rcases hsame with rfl | ⟨before, c₁, c₂, after, rfl, rfl, -, -, halike⟩
    · rfl
    · rw [halike]
      simp

end RouterAgent.Lease.Isc
