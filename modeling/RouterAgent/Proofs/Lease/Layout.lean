import RouterAgent.Proofs.Lease.Bare
import RouterAgent.Proofs.Lease.LineByLine

/-!
How a lease database is laid out.

The lines of a database are a row of pieces: lease blocks, and single lines outside of them. A text
is accepted exactly if its lines have such a layout, and then it lists what its blocks list. The
lines leave only one layout, and the first lines of a database only its first pieces.
-/

namespace RouterAgent.Lease.Isc

open RouterAgent.Text

/-! ### Lines -/

/-- A line that says nothing: it is blank or a remark. -/
def IsVoid (line : List Char) : Prop := trim line = [] ∨ (trim line).head? = some '#'

instance (line : List Char) : Decidable (IsVoid line) := inferInstanceAs (Decidable (_ ∨ _))

def IsInner (line : List Char) : Prop := IsVoid line ∨ hasBrace (bare (trim line)) = false

def IsLoose (line : List Char) : Prop :=
  IsVoid line ∨ header? (bare (trim line)) = none ∧
    (hasBrace (bare (trim line)) = true →
      (bare (trim line)).getLast? = some '{' ∨ bare (trim line) = ['}'])

def Statements.after (s : Statements) (line : List Char) : Statements :=
  if IsVoid line then s else s.read (trim line)

lemma IsVoid.step {line : List Char} (h : IsVoid line) (source : String) (place : Place) (n : Nat) :
    step source place n line = .ok (place, none) := by
  simp only [Isc.step]
  rw [if_pos (by simpa [IsVoid] using h)]

lemma not_isVoid_of_header? {line : List Char} {ip : String}
    (h : header? (bare (trim line)) = some ip) : ¬ IsVoid line := by
  have hhead := head?_of_header? h
  rintro (hnil | hremark)
  · simp [hnil] at hhead
  · simp [hremark] at hhead

lemma not_isVoid_of_brace {line : List Char} (h : trim line = ['}']) : ¬ IsVoid line := by
  simp [IsVoid, h]

lemma not_isInner_of_brace {line : List Char} (h : (trim line).head? = some '}') :
    ¬ IsInner line := by
  rintro ((hnil | hremark) | hplain)
  · simp [hnil] at h
  · simp [hremark] at h
  · rw [hasBrace_of_head? h] at hplain
    simp at hplain

lemma not_isLoose_of_header? {line : List Char} {ip : String}
    (h : header? (bare (trim line)) = some ip) : ¬ IsLoose line := by
  rintro (hvoid | ⟨hnone, -⟩)
  · exact not_isVoid_of_header? h hvoid
  · simp [h] at hnone

lemma step_of_not_isVoid {line : List Char} (h : ¬ IsVoid line) (source : String) (place : Place)
    (n : Nat) : step source place n line =
      match place with
      | .outside =>
        match header? (bare (trim line)) with
        | some ip => .ok (.inside ip {}, none)
        | none =>
          if hasBrace (bare (trim line)) ∧ (bare (trim line)).getLast? ≠ some '{' ∧
              bare (trim line) ≠ ['}'] then
            .error (.unexpectedBrace n)
          else .ok (.outside, none)
      | .inside ip statements =>
        if bare (trim line) = ['}'] then .ok (.outside, statements.client? source ip)
        else if hasBrace (bare (trim line)) then .error (.nestedBlock n ip)
        else .ok (.inside ip (statements.read (trim line)), none) := by
  simp only [step]
  exact if_neg (by simpa [IsVoid] using h)

lemma step_of_isLoose {line : List Char} (h : IsLoose line) (source : String) (n : Nat) :
    step source .outside n line = .ok (.outside, none) := by
  by_cases hvoid : IsVoid line
  · exact hvoid.step source .outside n
  · obtain ⟨hnone, hbrace⟩ := h.resolve_left hvoid
    simp only [step_of_not_isVoid hvoid, hnone]
    rw [if_neg]
    rintro ⟨hb, hlast, hlone⟩
    rcases hbrace hb with h | h
    · exact hlast h
    · exact hlone h

lemma step_of_header? {line : List Char} {ip : String} (h : header? (bare (trim line)) = some ip)
    (source : String) (n : Nat) : step source .outside n line = .ok (.inside ip {}, none) := by
  rw [step_of_not_isVoid (not_isVoid_of_header? h)]
  simp only [h]

lemma step_of_isInner {line : List Char} (h : IsInner line) (source ip : String) (s : Statements)
    (n : Nat) : step source (.inside ip s) n line = .ok (.inside ip (s.after line), none) := by
  by_cases hvoid : IsVoid line
  · rw [hvoid.step, Statements.after, if_pos hvoid]
  · have hplain : hasBrace (bare (trim line)) = false := h.resolve_left hvoid
    have hlone : bare (trim line) ≠ ['}'] := by
      intro hlone
      rw [hlone] at hplain
      exact absurd hplain (by decide)
    rw [step_of_not_isVoid hvoid, Statements.after, if_neg hvoid]
    simp [hplain, hlone]

lemma step_of_brace {line : List Char} (h : trim line = ['}']) (source ip : String)
    (s : Statements) (n : Nat) :
    step source (.inside ip s) n line = .ok (.outside, s.client? source ip) := by
  rw [step_of_not_isVoid (not_isVoid_of_brace h)]
  simp only [bare_eq_brace_iff.2 h, if_true]

lemma loose_or_header_of_step {source : String} {n : Nat} {line : List Char}
    {out : Place × Option Client} (h : step source .outside n line = .ok out) :
    IsLoose line ∨ ∃ ip, header? (bare (trim line)) = some ip := by
  by_cases hvoid : IsVoid line
  · exact .inl (.inl hvoid)
  · cases hheader : header? (bare (trim line)) with
    | some ip => exact .inr ⟨ip, rfl⟩
    | none =>
      simp only [step_of_not_isVoid hvoid, hheader] at h
      split at h
      · simp at h
      · next hbad =>
        refine .inl (.inr ⟨hheader, fun hbrace => ?_⟩)
        by_contra hno
        rw [not_or] at hno
        exact hbad ⟨hbrace, hno⟩

lemma inner_or_brace_of_step {source ip : String} {s : Statements} {n : Nat} {line : List Char}
    {out : Place × Option Client} (h : step source (.inside ip s) n line = .ok out) :
    IsInner line ∨ trim line = ['}'] := by
  by_cases hvoid : IsVoid line
  · exact .inl (.inl hvoid)
  · simp only [step_of_not_isVoid hvoid] at h
    split at h
    · next hlone => exact .inr (bare_eq_brace_iff.1 hlone)
    · split at h
      · simp at h
      · next hplain => exact .inl (.inr (by simpa using hplain))

/-! ### Pieces -/

/-- A lease block: the line that opens it, the lines inside, and the line that closes it. -/
structure Block where
  opening : List Char
  ip : String
  inside : List (List Char)
  closing : List Char
  header?_opening : header? (bare (trim opening)) = some ip
  isInner_inside : ∀ line ∈ inside, IsInner line
  trim_closing : trim closing = ['}']

namespace Block

def lines (b : Block) : List (List Char) := b.opening :: (b.inside ++ [b.closing])

def statements (b : Block) : Statements := b.inside.foldl Statements.after {}

def client? (b : Block) (source : String) : Option Client := b.statements.client? source b.ip

end Block

inductive Piece where
  | loose (line : List Char) (isLoose : IsLoose line)
  | block (b : Block)

namespace Piece

def lines : Piece → List (List Char)
  | loose line _ => [line]
  | block b => b.lines

def block? : Piece → Option Block
  | loose _ _ => none
  | block b => some b

end Piece

abbrev Layout := List Piece

namespace Layout

def lines (l : Layout) : List (List Char) := l.flatMap Piece.lines

def blocks (l : Layout) : List Block := l.filterMap Piece.block?

def clients (l : Layout) (source : String) : List Client :=
  l.blocks.filterMap (Block.client? · source)

@[simp] lemma lines_nil : lines [] = [] := rfl

@[simp] lemma lines_cons (piece : Piece) (l : Layout) : lines (piece :: l) = piece.lines ++ l.lines :=
  rfl

lemma lines_append (l m : Layout) : lines (l ++ m) = l.lines ++ m.lines := by simp [lines]

lemma clients_append (l m : Layout) (source : String) :
    clients (l ++ m) source = l.clients source ++ m.clients source := by
  simp [clients, blocks]

lemma clients_loose (line : List Char) (h : IsLoose line) (source : String) :
    clients [.loose line h] source = [] := rfl

lemma clients_block (b : Block) (source : String) :
    clients [.block b] source = (b.client? source).toList := by
  cases h : b.client? source <;> simp [clients, blocks, Piece.block?, h]

end Layout

/-! ### A layout is read -/

lemma run_append {source : String} {place mid : Place} {as bs : List (List Char × Nat)}
    {clients : List Client} (h : run source place as = .ok (mid, clients)) :
    run source place (as ++ bs) =
      (run source mid bs).map fun out => (out.1, clients ++ out.2) := by
  induction as generalizing place clients with
  | nil =>
    simp only [run, Except.ok.injEq, Prod.mk.injEq] at h
    obtain ⟨rfl, rfl⟩ := h
    cases hbs : run source place bs <;> simp [hbs, Except.map]
  | cons numbered as ih =>
    obtain ⟨line, n⟩ := numbered
    rw [run, bind_eq_ok] at h
    obtain ⟨⟨next, client⟩, hstep, h⟩ := h
    rw [bind_eq_ok] at h
    obtain ⟨⟨last, others⟩, hrun, h⟩ := h
    rw [pure_eq_ok, Prod.mk.injEq] at h
    obtain ⟨rfl, rfl⟩ := h
    rw [List.cons_append, run, hstep]
    simp only [bind, Except.bind, ih hrun]
    cases hbs : run source last bs <;> simp [Except.map, pure, Except.pure]

lemma run_inside {inside : List (List Char)} (h : ∀ line ∈ inside, IsInner line)
    (source ip : String) (s : Statements) (n : Nat) :
    run source (.inside ip s) (inside.zipIdx n) =
      .ok (.inside ip (inside.foldl Statements.after s), []) := by
  induction inside generalizing s n with
  | nil => rfl
  | cons line inside ih =>
    have hline : IsInner line := h line (by simp)
    have hrest := ih (fun l hl => h l (by simp [hl])) (s.after line) (n + 1)
    rw [List.zipIdx_cons, run, step_of_isInner hline]
    simp only [bind, Except.bind, hrest]
    rfl

lemma run_block (b : Block) (source : String) (n : Nat) :
    run source .outside (b.lines.zipIdx n) = .ok (.outside, (b.client? source).toList) := by
  have hinside := run_inside b.isInner_inside source b.ip {} (n + 1)
  have hclosing : ∀ m, run source (.inside b.ip b.statements) [(b.closing, m)] =
      .ok (.outside, (b.client? source).toList) := by
    intro m
    rw [run, step_of_brace b.trim_closing]
    simp [bind, Except.bind, run, pure, Except.pure, Block.client?]
  rw [Block.lines, List.zipIdx_cons, run, step_of_header? b.header?_opening]
  simp only [bind, Except.bind, List.zipIdx_append, run_append hinside, List.zipIdx_cons,
    List.zipIdx_nil]
  rw [show b.inside.foldl Statements.after {} = b.statements from rfl, hclosing]
  simp [Except.map, pure, Except.pure]

lemma run_layout (l : Layout) (source : String) (n : Nat) :
    run source .outside (l.lines.zipIdx n) = .ok (.outside, l.clients source) := by
  induction l generalizing n with
  | nil => rfl
  | cons piece l ih =>
    have hpiece : run source .outside (piece.lines.zipIdx n) =
        .ok (.outside, Layout.clients [piece] source) := by
      cases piece with
      | loose line isLoose =>
        simp [Piece.lines, run, step_of_isLoose isLoose, bind, Except.bind, pure, Except.pure,
          Layout.clients_loose]
      | block b =>
        rw [Layout.clients_block]
        exact run_block b source n
    have hclients : Layout.clients (piece :: l) source =
        Layout.clients [piece] source ++ Layout.clients l source :=
      Layout.clients_append [piece] l source
    rw [Layout.lines_cons, List.zipIdx_append, run_append hpiece, ih, hclients]
    rfl

/-! ### What is read has a layout -/

/-- What the lines from a place on are made of, if the last one leaves every lease block. -/
def Continues : Place → List (List Char) → Prop
  | .outside, ls => ∃ l : Layout, ls = l.lines
  | .inside _ _, ls => ∃ (inside : List (List Char)) (closing : List Char) (l : Layout),
      ls = inside ++ closing :: l.lines ∧ (∀ line ∈ inside, IsInner line) ∧ trim closing = ['}']

lemma continues_of_run {source : String} {place : Place} {ls : List (List Char)} {n : Nat}
    {clients : List Client} (h : run source place (ls.zipIdx n) = .ok (.outside, clients)) :
    Continues place ls := by
  induction ls generalizing place n clients with
  | nil =>
    simp only [List.zipIdx_nil, run, Except.ok.injEq, Prod.mk.injEq] at h
    rw [h.1]
    exact ⟨[], rfl⟩
  | cons line ls ih =>
    rw [List.zipIdx_cons, run, bind_eq_ok] at h
    obtain ⟨⟨next, client⟩, hstep, h⟩ := h
    rw [bind_eq_ok] at h
    obtain ⟨⟨last, others⟩, hrun, h⟩ := h
    rw [pure_eq_ok, Prod.mk.injEq] at h
    obtain ⟨rfl, -⟩ := h
    have hrest := ih hrun
    cases place with
    | outside =>
      rcases loose_or_header_of_step hstep with hloose | ⟨ip, hheader⟩
      · rw [step_of_isLoose hloose, Except.ok.injEq, Prod.mk.injEq] at hstep
        obtain ⟨rfl, -⟩ := hstep
        obtain ⟨l, rfl⟩ := hrest
        exact ⟨.loose line hloose :: l, rfl⟩
      · rw [step_of_header? hheader, Except.ok.injEq, Prod.mk.injEq] at hstep
        obtain ⟨rfl, -⟩ := hstep
        obtain ⟨inside, closing, l, rfl, hinside, hclosing⟩ := hrest
        exact ⟨.block ⟨line, ip, inside, closing, hheader, hinside, hclosing⟩ :: l, by
          simp [Piece.lines, Block.lines]⟩
    | inside ip s =>
      rcases inner_or_brace_of_step hstep with hinner | hbrace
      · rw [step_of_isInner hinner, Except.ok.injEq, Prod.mk.injEq] at hstep
        obtain ⟨rfl, -⟩ := hstep
        obtain ⟨inside, closing, l, rfl, hinside, hclosing⟩ := hrest
        exact ⟨line :: inside, closing, l, rfl, by simpa using ⟨hinner, hinside⟩, hclosing⟩
      · rw [step_of_brace hbrace, Except.ok.injEq, Prod.mk.injEq] at hstep
        obtain ⟨rfl, -⟩ := hstep
        obtain ⟨l, rfl⟩ := hrest
        exact ⟨[], line, l, rfl, by simp, hbrace⟩

lemma parse_of_layout {text : List Char} {l : Layout} (h : Text.lines text = l.lines)
    (source : String) : parse source text = .ok (Client.lastOfEach (l.clients source)) := by
  rw [parse, h, run_layout, ← Client.values_byAddress]
  rfl

/-- **A text is accepted exactly if its lines have a layout.** -/
theorem exists_layout_iff {source : String} {text : List Char} :
    (∃ listed, parse source text = .ok listed) ↔ ∃ l : Layout, Text.lines text = l.lines := by
  constructor
  · rintro ⟨listed, h⟩
    rw [parse, bind_eq_ok] at h
    obtain ⟨⟨place, clients⟩, hrun, h⟩ := h
    cases place with
    | outside => exact continues_of_run hrun
    | inside ip s => simp [throw, throwThe, MonadExceptOf.throw] at h
  · rintro ⟨l, h⟩
    exact ⟨_, parse_of_layout h source⟩

/-! ### The lines leave one layout -/

lemma append_cons_inj {α : Type*} {q : α → Prop} {as bs xs ys : List α} {a b : α}
    (h : as ++ a :: xs = bs ++ b :: ys) (has : ∀ c ∈ as, ¬ q c) (hbs : ∀ c ∈ bs, ¬ q c)
    (ha : q a) (hb : q b) : as = bs ∧ a = b ∧ xs = ys := by
  induction as generalizing bs with
  | nil =>
    rcases bs with _ | ⟨c, bs⟩
    · simpa using h
    · obtain ⟨rfl, -⟩ := List.cons.inj h
      exact absurd ha (hbs a (by simp))
  | cons c as ih =>
    rcases bs with _ | ⟨d, bs⟩
    · obtain ⟨rfl, -⟩ := List.cons.inj h
      exact absurd hb (has c (by simp))
    · obtain ⟨rfl, htail⟩ := List.cons.inj h
      obtain ⟨rfl, hrest⟩ := ih htail (fun x hx => has x (by simp [hx]))
        fun x hx => hbs x (by simp [hx])
      exact ⟨rfl, hrest⟩

lemma Block.not_isInner_closing (b : Block) : ¬ IsInner b.closing :=
  not_isInner_of_brace (by rw [b.trim_closing]; rfl)

lemma exists_block_of_header? {opening : List Char} {ip : String} {m : Layout}
    {rest : List (List Char)} (hheader : header? (bare (trim opening)) = some ip)
    (h : opening :: rest = m.lines) : ∃ (c : Block) (after : Layout), m = .block c :: after ∧
      c.opening = opening ∧ c.ip = ip ∧ rest = c.inside ++ c.closing :: after.lines := by
  rcases m with _ | ⟨piece, m⟩
  · simp at h
  · rw [Layout.lines_cons] at h
    cases piece with
    | loose line isLoose =>
      obtain ⟨rfl, -⟩ := List.cons.inj h
      exact absurd isLoose (not_isLoose_of_header? hheader)
    | block c =>
      obtain ⟨rfl, hrest⟩ := List.cons.inj h
      have hip : c.ip = ip := by
        rw [c.header?_opening] at hheader
        exact Option.some.inj hheader
      exact ⟨c, m, rfl, rfl, hip, by simpa using hrest⟩

lemma Block.eq_of_lines_append {b : Block} {m : Layout} {rest : List (List Char)}
    (h : b.lines ++ rest = m.lines) : ∃ after : Layout, m = .block b :: after ∧
      rest = after.lines := by
  rw [Block.lines, List.cons_append, List.append_assoc] at h
  obtain ⟨c, after, rfl, hopening, hip, hlines⟩ := exists_block_of_header? b.header?_opening h
  obtain ⟨hinside, hclosing, hrest⟩ := append_cons_inj (q := fun line => ¬ IsInner line) hlines
    (fun line hl => not_not.2 (b.isInner_inside line hl))
    (fun line hl => not_not.2 (c.isInner_inside line hl))
    b.not_isInner_closing c.not_isInner_closing
  have hbc : b = c := by
    cases b
    cases c
    simp_all
  exact ⟨after, by rw [hbc], hrest⟩

lemma Layout.eq_append_of_lines_append {l m : Layout} {rest : List (List Char)}
    (h : l.lines ++ rest = m.lines) : ∃ after : Layout, m = l ++ after ∧ rest = after.lines := by
  induction l generalizing m with
  | nil => exact ⟨m, rfl, h⟩
  | cons piece l ih =>
    rw [Layout.lines_cons, List.append_assoc] at h
    cases piece with
    | block b =>
      obtain ⟨others, rfl, hothers⟩ := Block.eq_of_lines_append h
      obtain ⟨after, rfl, hrest⟩ := ih hothers
      exact ⟨after, rfl, hrest⟩
    | loose line isLoose =>
      rcases m with _ | ⟨first, m⟩
      · simp [Piece.lines] at h
      · cases first with
        | block b =>
          obtain ⟨rfl, -⟩ := List.cons.inj h
          exact absurd isLoose (not_isLoose_of_header? b.header?_opening)
        | loose line' isLoose' =>
          obtain ⟨rfl, htail⟩ := List.cons.inj h
          obtain ⟨after, rfl, hrest⟩ := ih htail
          exact ⟨after, rfl, hrest⟩

end RouterAgent.Lease.Isc
