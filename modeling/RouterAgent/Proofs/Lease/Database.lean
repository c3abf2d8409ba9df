import Mathlib.Data.List.Induction
import RouterAgent.Proofs.Lease.Layout

/-!
Lease databases by what they are made of: remarks, statements outside of the blocks, blocks of
other kinds, and leases.

What a database lists follows from its leases alone, and the client of a lease from the statements
of this lease.
-/

namespace RouterAgent.Lease.Isc

open RouterAgent.Text

/-! ### Leases -/

/-- A statement of a lease: a keyword, a space, a value, and a semicolon or more. -/
structure Statement where
  line : List Char
  keyword : List Char
  value : List Char
  more : Nat
  isWord_keyword : IsWord keyword
  getLast?_value : value.getLast? ≠ some ';'
  trim_line : trim line = keyword ++ ' ' :: (value ++ List.replicate (more + 1) ';')
  unbraced : hasBrace (bare (trim line)) = false

/-- A lease: a line with the network address, statements, and a closing brace. -/
structure Entry where
  opening : List Char
  ip : List Char
  statements : List Statement
  closing : List Char
  isWord_ip : IsWord ip
  plain_ip : '"' ∉ ip
  trim_opening : trim opening = "lease ".toList ++ (ip ++ [' ', '{'])
  trim_closing : trim closing = ['}']

/-- The value of the last statement with a keyword, and nothing if there is none. -/
def lastValue (statements : List Statement) (keyword : String) : List Char :=
  ((statements.reverse.find? (String.ofList ·.keyword = keyword)).map fun s => trim s.value).getD []

namespace Entry

def lines (e : Entry) : List (List Char) :=
  e.opening :: (e.statements.map Statement.line ++ [e.closing])

/-- The client of a lease. Its last hardware statement must have two words, of which the second is
a hardware address. -/
def client? (e : Entry) (source : String) : Option Client :=
  match words (lastValue e.statements "hardware") with
  | [_, mac] => (HardwareAddress.normalize? (String.ofList mac)).map fun mac =>
    { mac
      ip := String.ofList e.ip
      hostname := String.ofList (trimWhere (· = '"') (lastValue e.statements "client-hostname"))
      expires := ends? (lastValue e.statements "ends")
      source }
  | _ => none

end Entry

lemma lastValue_concat (ss : List Statement) (s : Statement) (keyword : String) :
    lastValue (ss ++ [s]) keyword =
      if String.ofList s.keyword = keyword then trim s.value else lastValue ss keyword := by
  by_cases h : String.ofList s.keyword = keyword <;> simp [lastValue, h]

namespace Statement

lemma body_line (s : Statement) :
    trimRightWhere (· = ';') (trim s.line) = s.keyword ++ ' ' :: s.value := by
  rw [s.trim_line, ← List.cons_append, ← List.append_assoc, trimRightWhere_append (by simp)]
  refine trimRightWhere_of_getLast? fun c hc => ?_
  rcases List.eq_nil_or_concat s.value with hnil | ⟨value, d, hvalue⟩
  · obtain rfl : ' ' = c := by simpa [hnil] using hc
    decide
  · have hd : d ≠ ';' := by
      rintro rfl
      exact s.getLast?_value (by simp [hvalue])
    rw [hvalue, List.concat_eq_append, ← List.cons_append, ← List.append_assoc,
      List.getLast?_concat, Option.some.injEq] at hc
    simpa [← hc] using hd

lemma keyword_ne_of_isVoid {s : Statement} (h : IsVoid s.line) {keyword : String}
    (hkeyword : keyword.toList.head? ≠ some '#') : String.ofList s.keyword ≠ keyword := by
  obtain ⟨c, rest, hrest⟩ := List.exists_cons_of_ne_nil s.isWord_keyword.1
  rintro rfl
  rw [String.toList_ofList, hrest] at hkeyword
  rcases h with hnil | hremark
  · simp [s.trim_line] at hnil
  · rw [s.trim_line, hrest] at hremark
    exact hkeyword hremark

lemma after_line (s : Statement) (st : Statements) : st.after s.line =
    { hardware := if String.ofList s.keyword = "hardware" then trim s.value else st.hardware
      hostname := if String.ofList s.keyword = "client-hostname" then trim s.value else st.hostname
      ends := if String.ofList s.keyword = "ends" then trim s.value else st.ends } := by
  by_cases hvoid : IsVoid s.line
  · rw [Statements.after, if_pos hvoid, if_neg (keyword_ne_of_isVoid hvoid (by decide)),
      if_neg (keyword_ne_of_isVoid hvoid (by decide)),
      if_neg (keyword_ne_of_isVoid hvoid (by decide))]
  · have hspace : ∀ c ∈ s.keyword, (decide (c ≠ ' ')) = true := by
      intro c hc
      rw [decide_eq_true_eq]
      rintro rfl
      exact absurd (s.isWord_keyword.2 ' ' hc) (by decide)
    have htake : (s.keyword ++ ' ' :: s.value).takeWhile (· ≠ ' ') = s.keyword := by
      rw [List.takeWhile_append_of_pos hspace]
      simp
    have hdrop : (s.keyword ++ ' ' :: s.value).dropWhile (· ≠ ' ') = ' ' :: s.value := by
      rw [List.dropWhile_append_of_pos hspace]
      simp
    rw [Statements.after, if_neg hvoid, Statements.read, s.body_line, htake, hdrop,
      List.drop_one, List.tail_cons]
    generalize String.ofList s.keyword = keyword
    by_cases hhardware : keyword = "hardware"
    · subst hhardware
      rfl
    · by_cases hhostname : keyword = "client-hostname"
      · subst hhostname
        rfl
      · by_cases hends : keyword = "ends" <;> simp [hhardware, hhostname, hends]

end Statement

lemma foldl_after_lines (ss : List Statement) :
    (ss.map Statement.line).foldl Statements.after {} =
      ⟨lastValue ss "hardware", lastValue ss "client-hostname", lastValue ss "ends"⟩ := by
  induction ss using List.reverseRecOn with
  | nil => rfl
  | append_singleton ss s ih =>
    rw [List.map_append, List.foldl_append, ih, List.map_singleton, List.foldl_cons,
      List.foldl_nil, s.after_line]
    simp only [lastValue_concat]

namespace Entry

lemma header?_opening (e : Entry) :
    header? (bare (trim e.opening)) = some (String.ofList e.ip) := by
  have hplain : '"' ∉ trim e.opening := by
    rw [e.trim_opening]
    simp [e.plain_ip]
  refine header?_eq_some_iff.2 ⟨' ', [], [' '], by simp [isBlank], by simpa using e.isWord_ip, ?_⟩
  rw [bare_of_not_mem hplain, e.trim_opening]
  simp

def block (e : Entry) : Block where
  opening := e.opening
  ip := String.ofList e.ip
  inside := e.statements.map Statement.line
  closing := e.closing
  header?_opening := e.header?_opening
  isInner_inside := by
    intro line hline
    obtain ⟨s, -, rfl⟩ := List.mem_map.1 hline
    exact .inr s.unbraced
  trim_closing := e.trim_closing

lemma client?_block (e : Entry) (source : String) : e.block.client? source = e.client? source := by
  rw [Block.client?, Block.statements, block, foldl_after_lines]
  rfl

end Entry

/-! ### Databases -/

/-- A line of a block of another kind: it opens no lease, and a brace outside of strings is the last
character or the only one. -/
structure IsForeign (line : List Char) : Prop where
  opens_nothing : ∀ ip, ¬ Opens line ip
  braces : hasBrace (bare (trim line)) = false ∨ bare (trim line) = ['}'] ∨
    ∃ before, bare (trim line) = before ++ ['{'] ∧ hasBrace before = false

inductive Item where
  | void (line : List Char) (isVoid : IsVoid line)
  | statement (line : List Char) (unbraced : hasBrace (bare (trim line)) = false)
  | foreign (opening : List Char) (inside : List (List Char))
      (opens_nothing : ∀ ip, ¬ Opens opening ip)
      (getLast?_opening : (trim opening).getLast? = some '{')
      (isForeign_inside : ∀ line ∈ inside, IsForeign line)
  | lease (e : Entry)

namespace Item

def lines : Item → List (List Char)
  | void line _ => [line]
  | statement line _ => [line]
  | foreign opening inside _ _ _ => opening :: inside
  | lease e => e.lines

def lease? : Item → Option Entry
  | lease e => some e
  | _ => none

end Item

lemma header?_eq_none_iff {line : List Char} :
    header? (bare (trim line)) = none ↔ ∀ ip, ¬ Opens line ip := by
  rw [Option.eq_none_iff_forall_ne_some]
  constructor
  · intro h ip hip
    exact h (String.ofList ip) (header?_eq_some_iff.2 (by simpa using hip))
  · intro h ip hip
    exact h ip.toList (header?_eq_some_iff.1 hip)

lemma isLoose_of_unbraced {line : List Char} (h : hasBrace (bare (trim line)) = false) :
    IsLoose line := by
  have hnone : header? (bare (trim line)) = none := by
    refine Option.eq_none_iff_forall_ne_some.2 fun ip hip => ?_
    rw [hasBrace_of_header? hip] at h
    simp at h
  exact .inr ⟨hnone, fun hbrace => by simp [h] at hbrace⟩

lemma IsForeign.isLoose {line : List Char} (h : IsForeign line) : IsLoose line := by
  rcases h.braces with hplain | hlone | ⟨before, hlast, -⟩
  · exact isLoose_of_unbraced hplain
  · exact .inr ⟨header?_eq_none_iff.2 h.opens_nothing, fun _ => .inr hlone⟩
  · exact .inr ⟨header?_eq_none_iff.2 h.opens_nothing, fun _ => .inl (by simp [hlast])⟩

lemma isLoose_of_getLast? {line : List Char} (h : ∀ ip, ¬ Opens line ip)
    (hlast : (trim line).getLast? = some '{') : IsLoose line :=
  .inr ⟨header?_eq_none_iff.2 h, fun _ => .inl (getLast?_bare (by decide) hlast)⟩

namespace Item

def layout : Item → Layout
  | void line isVoid => [.loose line (.inl isVoid)]
  | statement line unbraced => [.loose line (isLoose_of_unbraced unbraced)]
  | foreign opening inside opens_nothing getLast?_opening isForeign_inside =>
    .loose opening (isLoose_of_getLast? opens_nothing getLast?_opening) ::
      inside.pmap Piece.loose fun line hline => (isForeign_inside line hline).isLoose
  | lease e => [.block e.block]

lemma lines_pmap_loose {inside : List (List Char)} (h : ∀ line ∈ inside, IsLoose line) :
    Layout.lines (inside.pmap Piece.loose h) = inside := by
  induction inside with
  | nil => rfl
  | cons line inside ih =>
    rw [List.pmap_cons, Layout.lines_cons, ih]
    rfl

lemma blocks_pmap_loose {inside : List (List Char)} (h : ∀ line ∈ inside, IsLoose line) :
    Layout.blocks (inside.pmap Piece.loose h) = [] := by
  induction inside with
  | nil => rfl
  | cons line inside ih => exact ih fun l hl => h l (by simp [hl])

lemma lines_layout (i : Item) : i.layout.lines = i.lines := by
  cases i with
  | void line isVoid => rfl
  | statement line unbraced => rfl
  | foreign opening inside opens_nothing getLast?_opening isForeign_inside =>
    rw [layout, Layout.lines_cons, lines_pmap_loose]
    rfl
  | lease e => exact List.append_nil _

lemma blocks_layout (i : Item) : i.layout.blocks = (i.lease?.map Entry.block).toList := by
  cases i with
  | void line isVoid => rfl
  | statement line unbraced => rfl
  | foreign opening inside opens_nothing getLast?_opening isForeign_inside =>
    exact blocks_pmap_loose _
  | lease e => rfl

lemma clients_layout (i : Item) (source : String) :
    i.layout.clients source = (i.lease?.bind (Entry.client? · source)).toList := by
  rw [Layout.clients, blocks_layout]
  cases h : i.lease? with
  | none => rfl
  | some e => cases hc : e.client? source <;> simp [e.client?_block, hc]

end Item

lemma exists_layout_of_items (items : List Item) (source : String) :
    ∃ l : Layout, items.flatMap Item.lines = l.lines ∧
      l.clients source = (items.filterMap Item.lease?).filterMap (Entry.client? · source) := by
  induction items with
  | nil => exact ⟨[], rfl, rfl⟩
  | cons i items ih =>
    obtain ⟨l, hlines, hclients⟩ := ih
    refine ⟨i.layout ++ l, ?_, ?_⟩
    · rw [List.flatMap_cons, Layout.lines_append, i.lines_layout, hlines]
    · rw [Layout.clients_append, i.clients_layout, hclients]
      cases h : i.lease? with
      | none => simp [h]
      | some e => cases hc : e.client? source <;> simp [h, hc]

/-- **A database lists its leases.** Whatever items it is made of, in any order, it is accepted and
lists the clients of its leases, one for each hardware address, the last one of several; nothing
else in it matters. -/
theorem database_lists_its_leases (source : String) {text : List Char} {items : List Item}
    (h : Text.lines text = items.flatMap Item.lines) :
    parse source text = .ok (Client.lastOfEach
      ((items.filterMap Item.lease?).filterMap (Entry.client? · source))) := by
  obtain ⟨l, hlines, hclients⟩ := exists_layout_of_items items source
  rw [parse_of_layout (h.trans hlines), hclients]

def tvHardware : Statement where
  line := "  hardware ethernet AA-00-00-00-00-01;".toList
  keyword := "hardware".toList
  value := "ethernet AA-00-00-00-00-01".toList
  more := 0
  isWord_keyword := by decide
  getLast?_value := by decide
  trim_line := by decide
  unbraced := by decide +kernel

/-- The name that `tvLease` gives; the brace in it opens nothing. -/
def tvName : Statement where
  line := "  client-hostname \"t\x7bv\";;".toList
  keyword := "client-hostname".toList
  value := "\"t\x7bv\"".toList
  more := 1
  isWord_keyword := by decide
  getLast?_value := by decide
  trim_line := by decide
  unbraced := by decide +kernel

def tvLease : Entry where
  opening := "lease 10.0.0.1 \x7b".toList
  ip := "10.0.0.1".toList
  statements := [tvHardware, tvName]
  closing := "\x7d".toList
  isWord_ip := by decide
  plain_ip := by decide
  trim_opening := by decide
  trim_closing := by decide

def lanItems : List Item :=
  [.void "# leases".toList (by decide),
   .statement "authoring-byte-order little-endian;".toList (by decide +kernel),
   .foreign "pool \x7b".toList ["\x7d".toList]
      (header?_eq_none_iff.1 (by decide +kernel)) (by decide) (by
        intro line hline
        obtain rfl : line = "\x7d".toList := by simpa using hline
        exact ⟨header?_eq_none_iff.1 (by decide +kernel), .inr (.inl (by decide +kernel))⟩),
   .lease tvLease]

theorem database_lists_its_leases_tv :
    Text.lines (ofLines (lanItems.flatMap Item.lines)) = lanItems.flatMap Item.lines ∧
    parse "" (ofLines (lanItems.flatMap Item.lines)) =
      .ok [⟨"aa:00:00:00:00:01", "10.0.0.1", "t\x7bv", none, ""⟩] := by
  have hlines : Text.lines (ofLines (lanItems.flatMap Item.lines)) =
      lanItems.flatMap Item.lines := by decide +kernel
  refine ⟨hlines, ?_⟩
  rw [database_lists_its_leases "" hlines]
  decide +kernel

end RouterAgent.Lease.Isc
