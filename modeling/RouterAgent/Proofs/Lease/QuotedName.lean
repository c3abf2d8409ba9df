import RouterAgent.Proofs.Lease.Quoting

/-!
Names in quotes.

A name stands in a lease block between quotes, with a backslash before each quote and each backslash
of its own. What is read is what stands between the quotes, with these backslashes, and a quote at
the end of the name is taken for a closing one. So the names that are read as they are meant are
exactly those without quotes and backslashes.
-/

namespace RouterAgent

lemma Client.mem_lastOfEach_middle {as bs : List Client} {c : Client}
    (h : ∀ d ∈ bs, d.mac ≠ c.mac) : c ∈ lastOfEach (as ++ c :: bs) := by
  rw [mem_lastOfEach, latest?_middle, latest?_eq_none_iff.2 h, Option.none_or, if_pos rfl]

namespace Lease.Isc

open RouterAgent.Text

/-! ### Escaping -/

def escapeChar (c : Char) : List Char := if c = '"' ∨ c = '\\' then ['\\', c] else [c]

def escape (cs : List Char) : List Char := cs.flatMap escapeChar

lemma escape_cons (c : Char) (cs : List Char) : escape (c :: cs) = escapeChar c ++ escape cs := rfl

lemma escape_concat (cs : List Char) (c : Char) : escape (cs ++ [c]) = escape cs ++ escapeChar c := by
  simp [escape]

lemma escapeChar_of_plain {c : Char} (hquote : c ≠ '"') (hslash : c ≠ '\\') :
    escapeChar c = [c] := by
  simp [escapeChar, hquote, hslash]

lemma escaped_escape (cs : List Char) : Escaped (escape cs) := by
  induction cs with
  | nil => exact .nil
  | cons c cs ih =>
    rw [escape_cons]
    by_cases h : c = '"' ∨ c = '\\'
    · rw [escapeChar, if_pos h]
      exact .pair c ih
    · rw [not_or] at h
      rw [escapeChar_of_plain h.1 h.2]
      exact .plain h.1 h.2 ih

lemma unbroken_escape {cs : List Char} (h : Unbroken cs) : Unbroken (escape cs) := by
  intro d hd
  obtain ⟨c, hc, hd⟩ := List.mem_flatMap.1 hd
  unfold escapeChar at hd
  split at hd
  · rcases List.mem_cons.1 hd with rfl | hd
    · decide
    · obtain rfl := List.mem_singleton.1 hd
      exact h d hc
  · obtain rfl := List.mem_singleton.1 hd
    exact h d hc

lemma escape_of_plain {cs : List Char} (hquote : '"' ∉ cs) (hslash : '\\' ∉ cs) :
    escape cs = cs := by
  induction cs with
  | nil => rfl
  | cons c cs ih =>
    rw [List.mem_cons, not_or] at hquote hslash
    rw [escape_cons, escapeChar_of_plain (Ne.symm hquote.1) (Ne.symm hslash.1),
      ih hquote.2 hslash.2, List.singleton_append]

lemma length_escape (cs : List Char) :
    (escape cs).length = cs.length + cs.countP fun c => c = '"' ∨ c = '\\' := by
  induction cs with
  | nil => rfl
  | cons c cs ih =>
    rw [escape_cons, List.length_append, ih, List.length_cons, List.countP_cons]
    by_cases h : c = '"' ∨ c = '\\'
    · rw [escapeChar, if_pos h, if_pos (decide_eq_true h)]
      simp only [List.length_cons, List.length_nil]
      omega
    · rw [escapeChar, if_neg h, if_neg (by simpa using h)]
      simp only [List.length_cons, List.length_nil]
      omega

/-! ### What is read of a name -/

/-- What is read of a name: its escaped form, without a quote at the end. -/
def kept (name : List Char) : List Char :=
  if name.getLast? = some '"' then (escape name).dropLast else escape name

lemma trimRightWhere_escape (name : List Char) :
    trimRightWhere (· = '"') (escape name) = kept name := by
  rcases List.eq_nil_or_concat name with rfl | ⟨init, c, rfl⟩
  · rfl
  · rw [List.concat_eq_append, kept, List.getLast?_concat, escape_concat]
    by_cases hquote : c = '"'
    · subst hquote
      have hslash : escape init ++ escapeChar '"' = (escape init ++ ['\\']) ++ ['"'] := by
        simp [escapeChar]
      rw [if_pos rfl, hslash, List.dropLast_concat, trimRightWhere_append (by simp)]
      exact trimRightWhere_concat (by decide)
    · have hlast : ∃ before, escape init ++ escapeChar c = before ++ [c] := by
        unfold escapeChar
        split
        · exact ⟨escape init ++ ['\\'], by simp⟩
        · exact ⟨escape init, rfl⟩
      obtain ⟨before, hbefore⟩ := hlast
      rw [if_neg (by simpa using hquote), hbefore]
      exact trimRightWhere_concat (by simpa using hquote)

lemma trimWhere_quotes (name : List Char) :
    trimWhere (· = '"') ('"' :: (escape name ++ ['"'])) = kept name := by
  have hopening : ('"' :: (escape name ++ ['"'])).dropWhile (· = '"') =
      (escape name ++ ['"']).dropWhile (· = '"') := by simp
  rw [trimWhere, hopening]
  rcases name with _ | ⟨c, cs⟩
  · rfl
  · have hfirst : (escape (c :: cs) ++ ['"']).dropWhile (· = '"') = escape (c :: cs) ++ ['"'] := by
      rw [escape_cons]
      by_cases h : c = '"' ∨ c = '\\'
      · rw [escapeChar, if_pos h]
        simp
      · obtain ⟨hquote, hslash⟩ := not_or.1 h
        rw [escapeChar_of_plain hquote hslash]
        simp [hquote]
    rw [hfirst, trimRightWhere_append (by simp), trimRightWhere_escape]

/-- **Which names are read as they are meant.** -/
lemma kept_eq_self_iff {name : List Char} : kept name = name ↔ '"' ∉ name ∧ '\\' ∉ name := by
  constructor
  · intro h
    have hlast : name.getLast? ≠ some '"' := by
      intro hlast
      -- a backslash would stand in the place of the quote
      obtain ⟨init, rfl⟩ := List.getLast?_eq_some_iff.1 hlast
      rw [kept, if_pos hlast, escape_concat, List.dropLast_append_of_ne_nil (by simp [escapeChar])]
        at h
      have hend := congrArg List.getLast? h
      simp [escapeChar] at hend
    rw [kept, if_neg hlast] at h
    have hcount : name.countP (fun c => c = '"' ∨ c = '\\') = 0 := by
      have hlength := length_escape name
      rw [h] at hlength
      omega
    rw [List.countP_eq_zero] at hcount
    exact ⟨fun hmem => hcount _ hmem (by simp), fun hmem => hcount _ hmem (by simp)⟩
  · rintro ⟨hquote, hslash⟩
    have hlast : name.getLast? ≠ some '"' := fun hlast => hquote (List.mem_of_getLast? hlast)
    rw [kept, if_neg hlast, escape_of_plain hquote hslash]

/-! ### A block with a name -/

/-- The keyword of a line: what stands before its first space. -/
def keyword (line : List Char) : String :=
  String.ofList ((trimRightWhere (· = ';') (trim line)).takeWhile (· ≠ ' '))

/-- The value of a line: what stands between its first space and the semicolons at its end. -/
def assigned (line : List Char) : List Char :=
  trim (((trimRightWhere (· = ';') (trim line)).dropWhile (· ≠ ' ')).drop 1)

lemma Statements.after_eq {line : List Char} (h : ¬ IsVoid line) (st : Statements) :
    st.after line =
      { hardware := if keyword line = "hardware" then assigned line else st.hardware
        hostname := if keyword line = "client-hostname" then assigned line else st.hostname
        ends := if keyword line = "ends" then assigned line else st.ends } := by
  have hread : st.read (trim line) =
      if keyword line = "hardware" then { st with hardware := assigned line }
      else if keyword line = "client-hostname" then { st with hostname := assigned line }
      else if keyword line = "ends" then { st with ends := assigned line } else st := rfl
  rw [Statements.after, if_neg h, hread]
  generalize keyword line = word
  split_ifs <;> simp_all

lemma Statements.hostname_after {line : List Char} (h : keyword line ≠ "client-hostname")
    (st : Statements) : (st.after line).hostname = st.hostname := by
  by_cases hvoid : IsVoid line
  · rw [Statements.after, if_pos hvoid]
  · rw [Statements.after_eq hvoid, if_neg h]

lemma Statements.hostname_foldl_after {ls : List (List Char)}
    (h : ∀ line ∈ ls, keyword line ≠ "client-hostname") (st : Statements) :
    (ls.foldl Statements.after st).hostname = st.hostname := by
  induction ls generalizing st with
  | nil => rfl
  | cons line ls ih =>
    rw [List.foldl_cons, ih (fun l hl => h l (by simp [hl])),
      Statements.hostname_after (h line (by simp))]

lemma trim_quotes (body : List Char) : trim ('"' :: (body ++ ['"'])) = '"' :: (body ++ ['"']) :=
  trim_cons_concat (by decide) (by decide) body

lemma quotes_escape {word : List Char} (h : IsToken word) (cs : List Char) :
    Quotes (quoting word (escape cs)) word (escape cs) :=
  ⟨h, escaped_escape cs, trim_quoting h⟩

lemma Slot.client?_of_name (s : Slot) (last : ∀ line ∈ s.below, keyword line ≠ "client-hostname")
    {line name : List Char} (h : Quotes line "client-hostname".toList (escape name))
    (source : String) : s.client? source line =
      (s.block.client? source).map fun c => { c with hostname := String.ofList (kept name) } := by
  have hafter (st : Statements) :
      st.after line = { st with hostname := '"' :: (escape name ++ ['"']) } := by
    rw [h.after_line, trim_quotes]
    rfl
  have halike (st : Statements) : Statements.Alike st (st.after line) := by
    rw [hafter]
    exact ⟨rfl, rfl⟩
  have hname (st : Statements) : (s.below.foldl Statements.after (st.after line)).hostname =
      '"' :: (escape name ++ ['"']) := by
    rw [Statements.hostname_foldl_after last, hafter]
  calc s.client? source line
      = (s.below.foldl Statements.after
          ((s.above.foldl Statements.after {}).after line)).client? source s.block.ip := by
        rw [Slot.client?, List.foldl_append, List.foldl_cons]
    _ = ((s.below.foldl Statements.after (s.above.foldl Statements.after {})).client? source
          s.block.ip).map fun c => { c with hostname := String.ofList (kept name) } := by
        rw [((halike _).foldl s.below).client?_eq, hname, trimWhere_quotes]
    _ = (s.block.client? source).map fun c =>
          { c with hostname := String.ofList (kept name) } := by
        rw [Block.client?, Block.statements, s.inside_block, List.foldl_append]

/-- **What is read of a name.** A lease block is given a name without line breaks, escaped and in
quotes, and no other name follows in the block. Such a line can be put into the text, and then the
block lists its client with what is read of the name, where no later block has its address. This is
the name itself exactly if there is no quote and no backslash in it. -/
theorem plain_names_are_read_back {source : String} {t : List Char} {s : Slot} {c : Client}
    (database : Text.lines t = s.upper ++ s.lower) (lease : s.block.client? source = some c)
    (last : ∀ line ∈ s.below, keyword line ≠ "client-hostname")
    {name : List Char} (unbroken : Unbroken name) :
    (∃ line t', Quotes line "client-hostname".toList (escape name) ∧
      Text.lines t' = s.upper ++ line :: s.lower) ∧
    (∀ line t', Quotes line "client-hostname".toList (escape name) →
      Text.lines t' = s.upper ++ line :: s.lower →
      ∃ listed, parse source t' = .ok listed ∧
        listed = Client.lastOfEach (s.before.clients source ++
          { c with hostname := String.ofList (kept name) } :: s.after.clients source) ∧
        ((∀ d ∈ s.after.clients source, d.mac ≠ c.mac) →
          { c with hostname := String.ofList (kept name) } ∈ listed)) ∧
    (String.ofList (kept name) = String.ofList name ↔ '"' ∉ name ∧ '\\' ∉ name) := by
  refine ⟨?_, fun line t' hquotes ht' => ?_, ?_⟩
  · have hword : IsToken "client-hostname".toList := by decide
    obtain ⟨t', ht'⟩ := exists_lines_eq_insert database
      (unbroken_quoting hword (unbroken_escape unbroken))
    exact ⟨_, t', quotes_escape hword name, ht'⟩
  · rw [← s.lines_fill hquotes.isInner] at ht'
    have hparse := parse_of_layout ht' source
    rw [s.clients_fill, s.client?_of_name last hquotes, lease, Option.map_some,
      Option.toList_some, List.singleton_append] at hparse
    exact ⟨_, hparse, rfl, fun hlater => Client.mem_lastOfEach_middle hlater⟩
  · rw [String.ofList_inj, kept_eq_self_iff]

def unnamed : Entry := { tvLease with statements := [tvHardware] }

def unnamedSlot : Slot where
  before := []
  block := unnamed.block
  after := []
  above := [tvHardware.line]
  below := []
  inside_block := rfl

def named (name : List Char) : List Char :=
  ofLines (unnamedSlot.upper ++ quoting "client-hostname".toList (escape name) :: unnamedSlot.lower)

def unnamedClient : Client := ⟨"aa:00:00:00:00:01", "10.0.0.1", "", none, ""⟩

lemma client?_unnamed : unnamedSlot.block.client? "" = some unnamedClient := by decide +kernel

lemma quotes_named (name : List Char) :
    Quotes (quoting "client-hostname".toList (escape name)) "client-hostname".toList (escape name) :=
  quotes_escape (by decide) name

def oddName : List Char := " ;\x7d tv;; ".toList

theorem plain_names_are_read_back_oddName :
    unnamedSlot.block.client? "" = some unnamedClient ∧ Unbroken oddName ∧
    parse "" (named oddName) = .ok [{ unnamedClient with hostname := String.ofList oddName }] := by
  have database : Text.lines (ofLines (unnamedSlot.upper ++ unnamedSlot.lower)) =
      unnamedSlot.upper ++ unnamedSlot.lower := by decide +kernel
  have unbroken : Unbroken oddName := by decide
  obtain ⟨-, hread, hplain⟩ :=
    plain_names_are_read_back database client?_unnamed (by simp [unnamedSlot]) unbroken
  obtain ⟨listed, hparse, hlisted, -⟩ :=
    hread _ (named oddName) (quotes_named oddName) (by decide +kernel)
  rw [hplain.2 (by decide +kernel)] at hlisted
  refine ⟨client?_unnamed, unbroken, ?_⟩
  rw [hparse, hlisted]
  rfl

def endingName : List Char := "tv\"".toList

/-- A name that ends in a quote is read with a backslash in the place of the quote. -/
theorem quoted_names_may_be_misread :
    ¬ ∀ (source : String) (t : List Char) (s : Slot) (c : Client) (name line : List Char),
      s.block.client? source = some c → (∀ line ∈ s.below, keyword line ≠ "client-hostname") →
      (∀ d ∈ s.after.clients source, d.mac ≠ c.mac) → Unbroken name →
      Quotes line "client-hostname".toList (escape name) →
      Text.lines t = s.upper ++ line :: s.lower →
      ∃ listed, parse source t = .ok listed ∧ { c with hostname := String.ofList name } ∈ listed := by
  intro h
  obtain ⟨listed, hparse, hmem⟩ := h "" (named endingName) unnamedSlot unnamedClient endingName _
    client?_unnamed (by simp [unnamedSlot]) (by simp [unnamedSlot, Layout.clients, Layout.blocks])
    (by decide) (quotes_named endingName) (by decide +kernel)
  have hread : parse "" (named endingName) = .ok [{ unnamedClient with hostname := "tv\\" }] := by
    decide +kernel
  rw [hread, Except.ok.injEq] at hparse
  rw [← hparse, List.mem_singleton] at hmem
  exact absurd hmem (by decide +kernel)

end Lease.Isc

end RouterAgent
