import RouterAgent.Lease.Dnsmasq
import RouterAgent.Proofs.Fault.Steps
import RouterAgent.Proofs.Table.LastOfEach

/-!
Lease files that are read line by line.

Reading stops at the first line that is an error. As long as there is none, each line is read by
itself, whatever its number is.
-/

namespace RouterAgent.Lease

namespace Dnsmasq

open RouterAgent.Text

variable {α : Type*} {source : String} {line : α → List Char} {found : α → Option Client}

/-- A line is read in the same way under every number. -/
def ReadAs (source : String) (line : List Char) (c : Option Client) : Prop :=
  ∀ n, client? source n (words line) = .ok c

lemma mapM_of_readAs {items : List α} (h : ∀ i ∈ items, ReadAs source (line i) (found i)) (n : ℕ) :
    ((items.map line).zipIdx n).mapM (fun (l, k) => client? source k (words l)) =
      .ok (items.map found) := by
  induction items generalizing n with
  | nil => rfl
  | cons i items ih =>
    have hfirst := h i (by simp) n
    have hrest := ih (fun j hj => h j (by simp [hj])) (n + 1)
    rw [mapM_eq_ok_iff] at hrest ⊢
    exact .cons hfirst hrest

lemma parse_of_readAs {text : List Char} {items : List α} {after : List (List Char)}
    (hlines : lines text = items.map line ++ after)
    (h : ∀ i ∈ items, ReadAs source (line i) (found i)) :
    parse source text =
      ((after.zipIdx (items.length + 1)).mapM fun (l, k) => client? source k (words l)).map
        fun (more : List (Option Client)) =>
          Client.lastOfEach (items.filterMap found ++ more.filterMap id) := by
  have hnumbered : (items.map line ++ after).zipIdx 1 =
      (items.map line).zipIdx 1 ++ after.zipIdx (items.length + 1) := by
    rw [List.zipIdx_append, List.length_map, Nat.add_comm]
  rw [parse, hlines, hnumbered, List.mapM_append, mapM_of_readAs h]
  cases (after.zipIdx (items.length + 1)).mapM fun (l, k) => client? source k (words l) <;>
    simp [Except.map, bind, Except.bind, pure, Except.pure, Client.values_byAddress,
      List.filterMap_map]

lemma parse_of_lines {text : List Char} {items : List α} (hlines : lines text = items.map line)
    (h : ∀ i ∈ items, ReadAs source (line i) (found i)) :
    parse source text = .ok (Client.lastOfEach (items.filterMap found)) := by
  have hall : lines text = items.map line ++ [] := by rw [hlines, List.append_nil]
  have hparse := parse_of_readAs hall h
  simpa [Except.map, pure, Except.pure] using hparse

lemma exists_of_parse {text : List Char} {batch : List Client} (h : parse source text = .ok batch) :
    ∀ l ∈ lines text, ∃ n c, client? source n (words l) = .ok c := by
  obtain ⟨found, hfound, -⟩ := bind_eq_ok.1 h
  intro l hl
  rw [← List.zipIdx_map_fst 1 (lines text)] at hl
  obtain ⟨⟨l, n⟩, hmem, rfl⟩ := List.mem_map.1 hl
  obtain ⟨c, -, hc⟩ := exists_of_forall₂ (mapM_eq_ok_iff.1 hfound) hmem
  exact ⟨n, c, hc⟩

end Dnsmasq

end RouterAgent.Lease
