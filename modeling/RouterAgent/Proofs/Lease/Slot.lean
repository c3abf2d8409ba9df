import RouterAgent.Proofs.Lease.Layout

/-!
One more line in a lease database.

The place between two lines of a database is between two pieces, or it is a slot: a place inside a
lease block. A line in a slot changes at most the client of its block.
-/

namespace RouterAgent.Lease.Isc

open RouterAgent.Text

/-- A place inside a lease block: the pieces around the block, and the lines inside the block above
the place and below it. -/
structure Slot where
  before : Layout
  block : Block
  after : Layout
  above : List (List Char)
  below : List (List Char)
  inside_block : block.inside = above ++ below

namespace Slot

def upper (s : Slot) : List (List Char) := s.before.lines ++ s.block.opening :: s.above

def lower (s : Slot) : List (List Char) := s.below ++ s.block.closing :: s.after.lines

def layout (s : Slot) : Layout := s.before ++ .block s.block :: s.after

def behind (s : Slot) (piece : Piece) : Slot := { s with before := piece :: s.before }

def blockWith (s : Slot) (line : List Char) (h : IsInner line) : Block :=
  { s.block with
    inside := s.above ++ line :: s.below
    isInner_inside := by
      intro l hl
      rw [List.mem_append, List.mem_cons] at hl
      have hblock := s.block.isInner_inside l
      rw [s.inside_block, List.mem_append] at hblock
      rcases hl with hl | rfl | hl
      · exact hblock (.inl hl)
      · exact h
      · exact hblock (.inr hl) }

/-- The pieces of the database with a line in the slot. -/
def fill (s : Slot) (line : List Char) (h : IsInner line) : Layout :=
  s.before ++ .block (s.blockWith line h) :: s.after

def client? (s : Slot) (source : String) (line : List Char) : Option Client :=
  Statements.client? ((s.above ++ line :: s.below).foldl Statements.after {}) source s.block.ip

lemma upper_behind (s : Slot) (piece : Piece) : (s.behind piece).upper = piece.lines ++ s.upper := by
  simp [behind, upper]

lemma lines_fill (s : Slot) {line : List Char} (h : IsInner line) :
    (s.fill line h).lines = s.upper ++ line :: s.lower := by
  simp [fill, blockWith, upper, lower, Layout.lines_append, Piece.lines, Block.lines]

lemma clients_fill (s : Slot) {line : List Char} (h : IsInner line) (source : String) :
    (s.fill line h).clients source =
      s.before.clients source ++ ((s.client? source line).toList ++ s.after.clients source) := by
  rw [fill, Layout.clients_append, ← List.singleton_append, Layout.clients_append,
    Layout.clients_block]
  rfl

lemma clients_fill_eq (s : Slot) {line : List Char} (h : IsInner line)
    (hafter : ∀ st : Statements, st.after line = st) (source : String) :
    (s.fill line h).clients source = s.layout.clients source := by
  have hclient : s.client? source line = s.block.client? source := by
    rw [client?, Block.client?, Block.statements, s.inside_block, List.foldl_append,
      List.foldl_append, List.foldl_cons, hafter]
  rw [clients_fill, layout, Layout.clients_append, ← List.singleton_append, Layout.clients_append,
    Layout.clients_block, hclient]

end Slot

lemma Layout.between_or_slot {l : Layout} {above below : List (List Char)}
    (h : l.lines = above ++ below) :
    (∃ before after : Layout, l = before ++ after ∧ above = before.lines ∧ below = after.lines) ∨
      ∃ s : Slot, s.layout = l ∧ s.upper = above ∧ s.lower = below := by
  induction l generalizing above with
  | nil =>
    obtain ⟨rfl, rfl⟩ := List.append_eq_nil_iff.1 h.symm
    exact .inl ⟨[], [], rfl, rfl, rfl⟩
  | cons piece l ih =>
    -- the lines are parted before the piece, behind it, or among its own lines
    have hbehind {more : List (List Char)} (habove : above = piece.lines ++ more)
        (hmore : Layout.lines l = more ++ below) :
        (∃ before after : Layout, piece :: l = before ++ after ∧ above = before.lines ∧
          below = after.lines) ∨
        ∃ s : Slot, s.layout = piece :: l ∧ s.upper = above ∧ s.lower = below := by
      rcases ih hmore with ⟨before, after, rfl, rfl, rfl⟩ | ⟨s, rfl, rfl, rfl⟩
      · exact .inl ⟨piece :: before, after, rfl, habove, rfl⟩
      · exact .inr ⟨s.behind piece, rfl, by rw [s.upper_behind, habove], rfl⟩
    rcases above with _ | ⟨first, above⟩
    · exact .inl ⟨[], piece :: l, rfl, rfl, h.symm⟩
    · rw [Layout.lines_cons] at h
      cases piece with
      | loose line isLoose =>
        obtain ⟨rfl, hrest⟩ := List.cons.inj h
        exact hbehind rfl hrest
      | block b =>
        rw [Piece.lines, Block.lines, List.cons_append, List.cons_append, List.cons.injEq,
          List.append_assoc, List.append_eq_append_iff] at h
        obtain ⟨rfl, hrest⟩ := h
        rcases hrest with ⟨more, rfl, hmore⟩ | ⟨rest, hinside, rfl⟩
        · rcases more with _ | ⟨closing, more⟩
          · exact .inr ⟨⟨[], b, l, b.inside, [], by simp⟩, rfl, by simp [Slot.upper], hmore⟩
          · obtain ⟨rfl, hlater⟩ := List.cons.inj hmore
            exact hbehind (by simp [Piece.lines, Block.lines]) hlater
        · exact .inr ⟨⟨[], b, l, above, rest, hinside⟩, rfl, rfl, rfl⟩

/-! ### Texts with one more line -/

lemma parse_of_added {source : String} {t t' line : List Char} {above below : List (List Char)}
    (hinner : IsInner line) (hloose : IsLoose line)
    (hafter : ∀ st : Statements, st.after line = st) {l : Layout} (hl : Text.lines t = l.lines)
    (h : Text.lines t = above ++ below) (h' : Text.lines t' = above ++ line :: below) :
    parse source t' = parse source t := by
  rw [parse_of_layout hl]
  -- between two pieces the line is a piece of its own, in a slot it joins the block
  rcases Layout.between_or_slot (hl.symm.trans h) with
    ⟨before, after, rfl, rfl, rfl⟩ | ⟨s, rfl, rfl, rfl⟩
  · have hl' : Text.lines t' = Layout.lines (before ++ .loose line hloose :: after) := by
      rw [h', Layout.lines_append, Layout.lines_cons]
      rfl
    have hclients : Layout.clients (before ++ .loose line hloose :: after) source =
        Layout.clients (before ++ after) source := by
      rw [Layout.clients_append, Layout.clients_append, ← List.singleton_append,
        Layout.clients_append, Layout.clients_loose, List.nil_append]
    rw [parse_of_layout hl', hclients]
  · have hl' : Text.lines t' = (s.fill line hinner).lines := by rw [h', s.lines_fill]
    rw [parse_of_layout hl', s.clients_fill_eq hinner hafter]

lemma Slot.parse_of_rel (s : Slot) {source : String} {r : Client → Client → Prop}
    {line₁ line₂ t₁ t₂ : List Char} (hinner₁ : IsInner line₁) (hinner₂ : IsInner line₂)
    (hrel : Option.Rel r (s.client? source line₁) (s.client? source line₂))
    (hmac : ∀ c d, r c d → d.mac = c.mac) (h₁ : Text.lines t₁ = s.upper ++ line₁ :: s.lower)
    (h₂ : Text.lines t₂ = s.upper ++ line₂ :: s.lower) :
    ∃ r₁ r₂, parse source t₁ = .ok r₁ ∧ parse source t₂ = .ok r₂ ∧
      (r₁ = r₂ ∨ ∃ before c₁ c₂ after, r₁ = before ++ c₁ :: after ∧ r₂ = before ++ c₂ :: after ∧
        s.client? source line₁ = some c₁ ∧ s.client? source line₂ = some c₂ ∧ r c₁ c₂) := by
  rw [← s.lines_fill hinner₁] at h₁
  rw [← s.lines_fill hinner₂] at h₂
  refine ⟨_, _, parse_of_layout h₁ source, parse_of_layout h₂ source, ?_⟩
  rw [s.clients_fill, s.clients_fill]
  generalize s.client? source line₁ = client₁ at hrel ⊢
  generalize s.client? source line₂ = client₂ at hrel ⊢
  cases hrel with
  | none => exact .inl rfl
  | @some c₁ c₂ hr =>
    rcases Client.lastOfEach_exchange (hmac c₁ c₂ hr) (s.before.clients source)
      (s.after.clients source) with heq | ⟨before, after, hbefore, hafter⟩
    · exact .inl heq
    · exact .inr ⟨before, c₁, c₂, after, hbefore, hafter, rfl, rfl, hr⟩

end RouterAgent.Lease.Isc
