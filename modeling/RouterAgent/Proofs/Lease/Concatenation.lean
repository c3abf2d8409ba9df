import RouterAgent.Proofs.Lease.Listing
import RouterAgent.Proofs.Text.Lines

/-!
Lease files one after another.

Reading leaves nothing behind: where a text of whole lines is accepted, what follows it is read as
if it stood alone. So the clients of both texts are those of each, merged.
-/

namespace RouterAgent.Lease

open RouterAgent.Text

variable {f : Format} {source : String} {t₁ t₂ : List Char}

/-! ### One lease a line -/

namespace Dnsmasq

lemma exists_parse_iff {text : List Char} : (∃ batch, parse source text = .ok batch) ↔
    ∀ line ∈ lines text, ∃ c, ReadAs source line c := by
  constructor
  · rintro ⟨batch, h⟩ line hline
    obtain ⟨n, c, hc⟩ := exists_of_parse h line hline
    exact ⟨_, readAs_listing hc⟩
  · intro h
    choose! found hfound using h
    have hlines : lines text = (lines text).map id := (List.map_id _).symm
    exact ⟨_, parse_of_lines hlines hfound⟩

lemma parse_append_of_error (h : lines (t₁ ++ t₂) = lines t₁ ++ lines t₂) {problem : Problem}
    (herror : parse source t₁ = .error problem) : parse source (t₁ ++ t₂) = .error problem := by
  rcases bind_eq_error.1 herror with hfirst | ⟨found, -, hfound⟩
  · rw [parse, h, List.zipIdx_append, List.mapM_append, hfirst]
    rfl
  · simp [pure, Except.pure] at hfound

end Dnsmasq

/-! ### Both forms -/

lemma Format.exists_parse_append_iff (h : lines (t₁ ++ t₂) = lines t₁ ++ lines t₂)
    (accepted : ∃ r, f.parse source t₁ = .ok r) :
    (∃ r, f.parse source (t₁ ++ t₂) = .ok r) ↔ ∃ r, f.parse source t₂ = .ok r := by
  cases f with
  | dnsmasq =>
    simp only [parse, Dnsmasq.exists_parse_iff, h] at accepted ⊢
    rw [List.forall_mem_append]
    exact and_iff_right accepted
  | isc =>
    simp only [parse, Isc.exists_layout_iff, h] at accepted ⊢
    obtain ⟨l, hl⟩ := accepted
    constructor
    · rintro ⟨m, hm⟩
      rw [hl] at hm
      obtain ⟨after, -, hafter⟩ := Isc.Layout.eq_append_of_lines_append hm
      exact ⟨after, hafter⟩
    · rintro ⟨m, hm⟩
      exact ⟨l ++ m, by rw [Isc.Layout.lines_append, hl, hm]⟩

lemma Format.Lists.append (h : lines (t₁ ++ t₂) = lines t₁ ++ lines t₂) {ls₁ ls₂ : List Listing}
    (h₁ : f.Lists t₁ ls₁) (h₂ : f.Lists t₂ ls₂) : f.Lists (t₁ ++ t₂) (ls₁ ++ ls₂) := by
  cases h₁ with
  | dnsmasq =>
    cases h₂ with
    | dnsmasq =>
      rw [← List.filterMap_append, ← h]
      exact .dnsmasq _
  | @isc _ l₁ hl₁ =>
    cases h₂ with
    | @isc _ l₂ hl₂ =>
      rw [← Isc.Layout.listings_append]
      exact .isc (by rw [h, hl₁, hl₂, Isc.Layout.lines_append])

/-- **The clients of two texts are merged.** The first text is empty or ends in a line feed. Where
it is accepted, it is accepted together with the second one exactly if the second one is by itself,
and then the clients of both are listed: in the order in which the addresses first appear, those of
the second text in the place of those of the first. An error in a line of the first text is reported
whatever follows. -/
theorem concatenation_merges_clients (source : String) {t₁ : List Char}
    (whole : ∀ c ∈ t₁.getLast?, c = '\n') (t₂ : List Char) :
    (∀ (f : Format) r₁, f.parse source t₁ = .ok r₁ →
      ((∃ r, f.parse source (t₁ ++ t₂) = .ok r) ↔ ∃ r₂, f.parse source t₂ = .ok r₂) ∧
      ∀ r₂, f.parse source t₂ = .ok r₂ →
        f.parse source (t₁ ++ t₂) = .ok (Client.merge r₁ r₂)) ∧
    ∀ problem, Dnsmasq.parse source t₁ = .error problem →
      Dnsmasq.parse source (t₁ ++ t₂) = .error problem := by
  have hlines := lines_append whole t₂
  refine ⟨fun f r₁ h₁ => ?_, fun problem => Dnsmasq.parse_append_of_error hlines⟩
  have hiff := Format.exists_parse_append_iff hlines ⟨r₁, h₁⟩
  refine ⟨hiff, fun r₂ h₂ => ?_⟩
  obtain ⟨r, hr⟩ := hiff.2 ⟨r₂, h₂⟩
  obtain ⟨ls₁, hls₁⟩ := Format.exists_lists h₁
  obtain ⟨ls₂, hls₂⟩ := Format.exists_lists h₂
  rw [hr, (hls₁.append hlines hls₂).batch_eq hr, List.filterMap_append, Client.lastOfEach_append,
    ← hls₁.batch_eq h₁, ← hls₂.batch_eq h₂]

def firstPart : List Char :=
  "5 AA-00-00-00-00-01 10.0.0.1 tv *\n5 aa:00:00:00:00:02 10.0.0.2 nas *\n".toList

def secondPart : List Char :=
  "6 aa:00:00:00:00:03 10.0.0.3 * *\n6 aa:00:00:00:00:01 10.0.0.9 tv *".toList

theorem concatenation_merges_clients_twoParts :
    (∀ c ∈ firstPart.getLast?, c = '\n') ∧
    Format.dnsmasq.parse "" (firstPart ++ secondPart) =
      .ok [⟨"aa:00:00:00:00:01", "10.0.0.9", "tv", some 6, ""⟩,
        ⟨"aa:00:00:00:00:02", "10.0.0.2", "nas", some 5, ""⟩,
        ⟨"aa:00:00:00:00:03", "10.0.0.3", "", some 6, ""⟩] := by
  have hlast : firstPart.getLast? = some '\n' := by decide +kernel
  have whole : ∀ c ∈ firstPart.getLast?, c = '\n' := by simp [hlast]
  have h₁ : Format.dnsmasq.parse "" firstPart =
      .ok [⟨"aa:00:00:00:00:01", "10.0.0.1", "tv", some 5, ""⟩,
        ⟨"aa:00:00:00:00:02", "10.0.0.2", "nas", some 5, ""⟩] := by decide +kernel
  have h₂ : Format.dnsmasq.parse "" secondPart =
      .ok [⟨"aa:00:00:00:00:03", "10.0.0.3", "", some 6, ""⟩,
        ⟨"aa:00:00:00:00:01", "10.0.0.9", "tv", some 6, ""⟩] := by decide +kernel
  refine ⟨whole, ?_⟩
  rw [((concatenation_merges_clients "" whole secondPart).1 .dnsmasq _ h₁).2 _ h₂]
  decide +kernel

end RouterAgent.Lease
