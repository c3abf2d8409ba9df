import RouterAgent.Proofs.Table.Ownership

/-!
What a contribution changes.

A contribution tells whether it changed a record. It tells the truth about every table, also about
one whose records and listings do not fit together: the addresses that leave the table had a record
before, and the entries that come in differ from what stood in their place.
-/

namespace RouterAgent.Client.Table

variable {t : Table} {source : String} {batch : List Client}

lemma eq_of_records_of_listed {u : Table} (hrecords : t.records = u.records)
    (hlisted : t.listed = u.listed) : t = u := by
  cases t
  cases u
  simp_all

lemma latest?_of_mem_entries {e : String × Client} (h : e ∈ (byAddress batch).entries) :
    latest? batch e.1 = some e.2 := by
  rw [← get?_byAddress, OrderedMap.get?_eq_some_iff]
  exact h

/-! ### What is reported -/

lemma changed_iff : (t.replaceSource source batch).1 = true ↔
    t.stale source (byAddress batch) ≠ [] ∨ t.fresh (byAddress batch) ≠ [] := by
  simp [replaceSource]

lemma records_of_unchanged (hstale : t.stale source (byAddress batch) = [])
    (hfresh : t.fresh (byAddress batch) = []) :
    (t.replaceSource source batch).2.records = t.records := by
  simp only [replaceSource, hstale, hfresh]
  rfl

lemma get?_of_mem_stale {mac : String} (h : mac ∈ t.stale source (byAddress batch)) :
    (t.replaceSource source batch).2.records.get? mac = none ∧
      t.records.get? mac ≠ none := by
  obtain ⟨hlisted, hnot, r, hr, hsource⟩ := mem_stale.1 h
  rw [get?_byAddress] at hnot
  constructor
  · simp [get?_replaceSource, hnot, hlisted, hr, hsource, Option.filter]
  · simp [hr]

lemma get?_of_mem_fresh (source : String) {e : String × Client}
    (h : e ∈ t.fresh (byAddress batch)) :
    (t.replaceSource source batch).2.records.get? e.1 = some e.2 ∧
      t.records.get? e.1 ≠ some e.2 := by
  obtain ⟨he, hnew⟩ := List.mem_filter.1 h
  exact ⟨by rw [get?_replaceSource, latest?_of_mem_entries he, Option.some_or],
    of_decide_eq_true hnew⟩

lemma exists_changed (h : (t.replaceSource source batch).1 = true) :
    ∃ mac, (t.replaceSource source batch).2.records.get? mac ≠ t.records.get? mac := by
  rcases changed_iff.1 h with hstale | hfresh
  · obtain ⟨mac, hmac⟩ := List.exists_mem_of_ne_nil _ hstale
    obtain ⟨hnow, hbefore⟩ := get?_of_mem_stale hmac
    exact ⟨mac, hnow ▸ hbefore.symm⟩
  · obtain ⟨e, he⟩ := List.exists_mem_of_ne_nil _ hfresh
    obtain ⟨hnow, hbefore⟩ := get?_of_mem_fresh source he
    exact ⟨e.1, hnow ▸ hbefore.symm⟩

/-! ### The same batch again -/

lemma stale_eq_nil (h : t.listed.get? source = some (byAddress batch).keys) :
    t.stale source (byAddress batch) = [] := by
  refine List.filter_eq_nil_iff.2 fun mac hmac => ?_
  rw [listedBy, h, Option.getD_some, ← OrderedMap.contains_iff] at hmac
  simp [hmac]

lemma fresh_eq_nil (h : ∀ mac r, latest? batch mac = some r → t.records.get? mac = some r) :
    t.fresh (byAddress batch) = [] := by
  refine List.filter_eq_nil_iff.2 fun e he => ?_
  simp [h _ _ (latest?_of_mem_entries he)]

lemma replaceSource_again (t : Table) (source : String) (batch : List Client) :
    (t.replaceSource source batch).2.replaceSource source batch =
      (false, (t.replaceSource source batch).2) := by
  have hlisted : (t.replaceSource source batch).2.listed.get? source =
      some (byAddress batch).keys := by
    rw [listed_replaceSource, OrderedMap.get?_insert, if_pos rfl]
  have hstale := stale_eq_nil hlisted
  have hfresh : (t.replaceSource source batch).2.fresh (byAddress batch) = [] := by
    refine fresh_eq_nil fun mac r hr => ?_
    rw [get?_replaceSource, hr, Option.some_or]
  refine Prod.ext ?_ (eq_of_records_of_listed (records_of_unchanged hstale hfresh) ?_)
  · rw [← Bool.not_eq_true, changed_iff]
    simp [hstale, hfresh]
  · rw [listed_replaceSource, OrderedMap.insert_of_get? hlisted]

/-- **A change is reported exactly.** On every table a contribution reports a change exactly if some
address has another record than before. An address that neither the batch nor the file's listing has
keeps its record. The same contribution once more reports nothing and changes nothing. -/
theorem change_is_reported_exactly (t : Table) (source : String) (batch : List Client) :
    ((t.replaceSource source batch).1 = true ↔
      ∃ mac, (t.replaceSource source batch).2.records.get? mac ≠ t.records.get? mac) ∧
    (∀ mac, (∀ r ∈ batch, r.mac ≠ mac) → mac ∉ t.listedBy source →
      (t.replaceSource source batch).2.records.get? mac = t.records.get? mac) ∧
    (t.replaceSource source batch).2.replaceSource source batch =
      (false, (t.replaceSource source batch).2) := by
  refine ⟨⟨exists_changed, fun ⟨mac, hmac⟩ => ?_⟩, fun mac hbatch hlisted => ?_,
    replaceSource_again t source batch⟩
  · by_contra hflag
    rw [changed_iff, not_or, not_not, not_not] at hflag
    rw [records_of_unchanged hflag.1 hflag.2] at hmac
    exact hmac rfl
  · rw [get?_replaceSource, latest?_eq_none_iff.2 hbatch, Option.none_or, if_neg hlisted]

/-- A table that no history leaves: a file lists an address whose record names another file. -/
def stray : Table where
  records := .ofList [("aa:00:00:00:00:01", ⟨"aa:00:00:00:00:01", "10.0.0.1", "tv", none, "/run/b"⟩)]
  listed := .ofList [("/run/a", ["aa:00:00:00:00:01"])]

theorem change_is_reported_exactly_stray :
    (stray.replaceSource "/run/a" []).1 = false ∧
    (stray.replaceSource "/run/b"
      [⟨"aa:00:00:00:00:02", "10.0.0.2", "nas", none, "/run/a"⟩]).2.records.get?
        "aa:00:00:00:00:01" = stray.records.get? "aa:00:00:00:00:01" := by
  constructor
  · have hsame : (stray.replaceSource "/run/a" []).2.records = stray.records :=
      records_of_unchanged (by decide) (by decide)
    rw [← Bool.not_eq_true, (change_is_reported_exactly stray "/run/a" []).1, hsame]
    simp
  · exact (change_is_reported_exactly stray _ _).2.1 _ (by decide) (by decide)

end RouterAgent.Client.Table
