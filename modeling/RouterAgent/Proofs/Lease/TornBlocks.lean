import RouterAgent.Proofs.Lease.Layout
import RouterAgent.Proofs.Text.Lines

/-!
Lease databases that are cut while they are written.

A cut changes the last line only. A text that ends inside a block is an error, and outside of the
blocks no line lists a client. So the one line that matters is the one that closes a block, and of
this line a beginning with the brace closes the block as well as the whole.
-/

namespace RouterAgent.Lease.Isc

open RouterAgent.Text

/-- The lines end between two parts of a layout: but for blanks at the ends of lines they are those
of the first part, and perhaps a beginning of the line that follows. -/
def EndsBetween (ls : List (List Char)) (before after : Layout) : Prop :=
  ∃ rest : Option (List Char), ls.map trim = (before.lines ++ rest.toList).map trim ∧
    ∀ q ∈ rest, ∃ line ∈ after.lines.head?, q <+: line

lemma exists_block_of_cut {b : Block} {m : Layout} {line : List Char} {rest : List (List Char)}
    (hcut : b.closing <+: line)
    (h : b.opening :: (b.inside ++ line :: rest) = m.lines) :
    ∃ (c : Block) (after : Layout), m = .block c :: after ∧ c.lines.map trim = b.lines.map trim ∧
      ∀ source, c.client? source = b.client? source := by
  obtain ⟨c, after, rfl, hopening, hip, hlines⟩ := exists_block_of_header? b.header?_opening h
  have hline : ¬ IsInner line := by
    obtain ⟨later, hlater⟩ := trim_prefix_trim hcut
    rw [b.trim_closing] at hlater
    exact not_isInner_of_brace (by rw [← hlater]; rfl)
  obtain ⟨hinside, hclosing, -⟩ := append_cons_inj (q := fun line => ¬ IsInner line) hlines
    (fun line hl => not_not.2 (b.isInner_inside line hl))
    (fun line hl => not_not.2 (c.isInner_inside line hl)) hline c.not_isInner_closing
  refine ⟨c, after, rfl, ?_, fun source => ?_⟩
  · simp [Block.lines, hopening, hinside, c.trim_closing, b.trim_closing]
  · rw [Block.client?, Block.client?, Block.statements, Block.statements, hinside, hip]

lemma exists_endsBetween {k l : Layout} (h : Begins k.lines l.lines) :
    ∃ before after : Layout, l = before ++ after ∧ EndsBetween k.lines before after ∧
      ∀ source, k.clients source = before.clients source := by
  obtain ⟨n, htake | ⟨q, line, -, hq, hline, htake⟩⟩ := h
  · -- the cut comes between two lines
    have hlines : k.lines ++ l.lines.drop n = l.lines := by rw [htake, List.take_append_drop]
    obtain ⟨after, rfl, -⟩ := Layout.eq_append_of_lines_append hlines
    exact ⟨k, after, rfl, ⟨none, by simp, by simp⟩, fun _ => rfl⟩
  · have hsplit : l.lines.take n ++ line :: l.lines.drop (n + 1) = l.lines := by
      obtain ⟨hn, rfl⟩ := List.getElem?_eq_some_iff.1 hline
      rw [← List.drop_eq_getElem_cons hn, List.take_append_drop]
    rcases List.eq_nil_or_concat k with rfl | ⟨(init : Layout), piece, rfl⟩
    · simp at htake
    · rw [List.concat_eq_append] at htake ⊢
      cases piece with
      | loose line' isLoose =>
        -- the line that is cut lists nothing, whatever it begins
        have hlast : init.lines ++ [line'] = l.lines.take n ++ [q] := by
          rw [← htake, Layout.lines_append]
          rfl
        obtain ⟨hinit, hlast⟩ := List.append_inj' hlast rfl
        obtain rfl : line' = q := by simpa using hlast
        rw [← hinit] at hsplit
        obtain ⟨after, rfl, hafter⟩ := Layout.eq_append_of_lines_append hsplit
        refine ⟨init, after, rfl, ⟨some line', ?_, ?_⟩, fun source => ?_⟩
        · rw [Layout.lines_append]
          rfl
        · simp [← hafter, hq]
        · rw [Layout.clients_append, Layout.clients_loose, List.append_nil]
      | block b =>
        have hlast : (init.lines ++ b.opening :: b.inside) ++ [b.closing] =
            l.lines.take n ++ [q] := by
          rw [← htake, Layout.lines_append]
          simp [Piece.lines, Block.lines]
        obtain ⟨hinit, hlast⟩ := List.append_inj' hlast rfl
        obtain rfl : b.closing = q := by simpa using hlast
        rw [← hinit, List.append_assoc, List.cons_append] at hsplit
        obtain ⟨others, rfl, hothers⟩ := Layout.eq_append_of_lines_append hsplit
        obtain ⟨c, after, rfl, htrim, hclient⟩ := exists_block_of_cut hq hothers
        refine ⟨init ++ [.block c], after, by simp, ⟨none, ?_, by simp⟩, fun source => ?_⟩
        · simp [Layout.lines_append, Piece.lines, htrim]
        · rw [Layout.clients_append, Layout.clients_append, Layout.clients_block,
            Layout.clients_block, hclient]

lemma Layout.exists_block_of_mem_clients {l : Layout} {source : String} {r : Client}
    (h : r ∈ l.clients source) : ∃ b ∈ l.blocks, b.client? source = some r := by
  simpa [clients] using h

/-- **A text that is cut is an error or lists the blocks that are closed in it.** These are the
blocks of the pieces before the cut, and after the cut there is at most a beginning of one line.
Each client that it lists is that of a whole block. -/
theorem torn_text_lists_closed_blocks {source : String} {t p : List Char} {listed : List Client}
    (accepted : parse source t = .ok listed) (torn : p <+: t) :
    (∃ l : Layout, Text.lines t = l.lines) ∧
    ∀ l : Layout, Text.lines t = l.lines →
      listed = Client.lastOfEach (l.clients source) ∧
      ((∃ problem, parse source p = .error problem) ∨
        ∃ before after : Layout, l = before ++ after ∧
          EndsBetween (Text.lines p) before after ∧
          parse source p = .ok (Client.lastOfEach (before.clients source))) ∧
      ∀ batch, parse source p = .ok batch →
        ∀ r ∈ batch, ∃ b ∈ l.blocks, b.client? source = some r := by
  refine ⟨exists_layout_iff.1 ⟨listed, accepted⟩, fun l hl => ?_⟩
  have hlisted : listed = Client.lastOfEach (l.clients source) := by
    rw [parse_of_layout hl, Except.ok.injEq] at accepted
    exact accepted.symm
  have hclosed : (∃ problem, parse source p = .error problem) ∨
      ∃ before after : Layout, l = before ++ after ∧ EndsBetween (Text.lines p) before after ∧
        parse source p = .ok (Client.lastOfEach (before.clients source)) := by
    cases hp : parse source p with
    | error problem => exact .inl ⟨problem, rfl⟩
    | ok batch =>
      right
      obtain ⟨k, hk⟩ := exists_layout_iff.1 ⟨batch, hp⟩
      have hbegins := begins_lines torn
      rw [hk, hl] at hbegins
      obtain ⟨before, after, hsplit, hends, hclients⟩ := exists_endsBetween hbegins
      refine ⟨before, after, hsplit, hk ▸ hends, ?_⟩
      rw [← hp, parse_of_layout hk, hclients]
  refine ⟨hlisted, hclosed, fun batch hbatch r hr => ?_⟩
  rcases hclosed with ⟨problem, hproblem⟩ | ⟨before, after, rfl, -, hok⟩
  · rw [hproblem] at hbatch
    simp at hbatch
  · rw [hok, Except.ok.injEq] at hbatch
    rw [← hbatch] at hr
    obtain ⟨b, hb, hclient⟩ :=
      Layout.exists_block_of_mem_clients (Client.mem_of_mem_lastOfEach hr)
    exact ⟨b, by simpa [Layout.blocks] using .inl (by simpa [Layout.blocks] using hb), hclient⟩

/-- Two lease blocks; a quoted brace in the first one opens nothing. -/
def twoLeases : List Char :=
  ("lease 10.0.0.1 \x7b\n hardware ethernet AA-00-00-00-00-01;\n client-hostname \"t\x7dv\";\n\x7d\n" ++
    "lease 10.0.0.2 \x7b\n hardware ethernet aa:00:00:00:00:02;\n\x7d\n").toList

def cutInOpening : List Char := twoLeases.take 93

theorem torn_text_lists_closed_blocks_twoLeases :
    cutInOpening <+: twoLeases ∧
    parse "" cutInOpening = .ok [⟨"aa:00:00:00:00:01", "10.0.0.1", "t\x7dv", none, ""⟩] ∧
    ∃ before after : Layout, Text.lines twoLeases = (before ++ after).lines ∧
      EndsBetween (Text.lines cutInOpening) before after ∧
      Client.lastOfEach (before.clients "") =
        [⟨"aa:00:00:00:00:01", "10.0.0.1", "t\x7dv", none, ""⟩] := by
  have accepted : parse "" twoLeases = .ok
      [⟨"aa:00:00:00:00:01", "10.0.0.1", "t\x7dv", none, ""⟩,
        ⟨"aa:00:00:00:00:02", "10.0.0.2", "", none, ""⟩] := by decide +kernel
  have hcut : parse "" cutInOpening =
      .ok [⟨"aa:00:00:00:00:01", "10.0.0.1", "t\x7dv", none, ""⟩] := by decide +kernel
  have torn : cutInOpening <+: twoLeases := List.take_prefix ..
  obtain ⟨⟨l, hl⟩, hall⟩ := torn_text_lists_closed_blocks accepted torn
  obtain ⟨-, hclosed, -⟩ := hall l hl
  rcases hclosed with ⟨problem, hproblem⟩ | ⟨before, after, rfl, hends, hok⟩
  · rw [hcut] at hproblem
    simp at hproblem
  · rw [hcut, Except.ok.injEq] at hok
    exact ⟨torn, hcut, before, after, hl, hends, hok.symm⟩

end RouterAgent.Lease.Isc
