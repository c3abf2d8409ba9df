import Mathlib.Data.List.Nodup
import RouterAgent.Proofs.Table.Change
import RouterAgent.Proofs.Table.History

/-!
One contribution from each of several files.

Whatever the table held before, of the files that contribute only the new batches are left, merged
so that the last listing of an address wins. The same contributions once more change nothing.
-/

namespace RouterAgent.Client

/-! ### One batch for each file -/

namespace Contribution

def ofEach (paths : List String) (batch : String → List Client) : List Contribution :=
  paths.map fun path => ⟨path, batch path⟩

lemma sources_ofEach (paths : List String) (batch : String → List Client) :
    (ofEach paths batch).map (·.source) = paths := by
  simp [ofEach, Function.comp_def]

lemma batches_ofEach (paths : List String) (batch : String → List Client) :
    (ofEach paths batch).flatMap (·.batch) = paths.flatMap batch := by
  simp [ofEach, List.flatMap_map]

lemma find?_ofEach (paths : List String) (batch : String → List Client) (source : String) :
    (ofEach paths batch).find? (·.source = source) =
      if source ∈ paths then some ⟨source, batch source⟩ else none := by
  induction paths with
  | nil => rfl
  | cons path paths ih =>
    rw [ofEach, List.map_cons, List.find?_cons]
    by_cases hs : path = source
    · simp [hs]
    · simpa [hs, Ne.symm hs, ofEach] using ih

end Contribution

namespace Table

/-! ### The merge -/

/-- **The merge.** After one contribution from each of several files an address has the record of
the last batch that lists it; else it keeps a record of another file. -/
theorem Owned.get?_replay_of_nodup {t : Table} (h : t.Owned) {cs : List Contribution}
    (tagged : ∀ c ∈ cs, c.Tagged) (distinct : (cs.map (·.source)).Nodup) (mac : String) :
    (t.replay cs).records.get? mac =
      (latest? (cs.flatMap (·.batch)) mac).or
        ((t.records.get? mac).filter fun r => r.source ∉ cs.map (·.source)) := by
  induction cs generalizing t with
  | nil => cases hr : t.records.get? mac <;> simp [hr, latest?, Option.filter]
  | cons c cs ih =>
    rw [List.map_cons, List.nodup_cons] at distinct
    have hc : c.Tagged := tagged c (by simp)
    rw [replay_cons, ih (h.contribute hc) (fun d hd => tagged d (by simp [hd])) distinct.2,
      h.get?_contribute, List.flatMap_cons, latest?_append, Option.or_assoc]
    congr 1
    cases hl : latest? c.batch mac with
    | none =>
      rw [Option.none_or, Option.none_or, Option.filter_filter]
      congr 1
      funext r
      simp
    | some r =>
      -- no later contribution is of the same file, so the new record stands
      have hr : r.source ∉ cs.map (·.source) := by
        rw [hc.source_of_latest? hl]
        exact distinct.1
      rw [Option.some_or, Option.some_or, Option.filter_some, if_pos (decide_eq_true hr)]

lemma get?_listed_replay (t : Table) {cs : List Contribution}
    (distinct : (cs.map (·.source)).Nodup) (source : String) :
    (t.replay cs).listed.get? source =
      ((cs.find? (·.source = source)).map fun c => (byAddress c.batch).keys).or
        (t.listed.get? source) := by
  induction cs generalizing t with
  | nil => rfl
  | cons c cs ih =>
    rw [List.map_cons, List.nodup_cons] at distinct
    rw [replay_cons, ih _ distinct.2, contribute, listed_replaceSource, OrderedMap.get?_insert,
      List.find?_cons]
    by_cases hs : c.source = source
    · have hnone : cs.find? (·.source = source) = none := by
        rw [List.find?_eq_none]
        intro d hd hds
        exact distinct.1 (List.mem_map.2 ⟨d, hd, by rw [of_decide_eq_true hds, hs]⟩)
      simp [hs, hnone]
    · simp [hs, Ne.symm hs]

lemma get?_replay_of_new (t : Table) {cs : List Contribution}
    (distinct : (cs.map (·.source)).Nodup) (hnew : ∀ c ∈ cs, t.listed.get? c.source = none)
    (mac : String) :
    (t.replay cs).records.get? mac =
      (latest? (cs.flatMap (·.batch)) mac).or (t.records.get? mac) := by
  induction cs generalizing t with
  | nil => rfl
  | cons c cs ih =>
    rw [List.map_cons, List.nodup_cons] at distinct
    have hlisted : t.listedBy c.source = [] := by simp [listedBy, hnew c (by simp)]
    have hrest : ∀ d ∈ cs, (t.contribute c).listed.get? d.source = none := by
      intro d hd
      have hne : d.source ≠ c.source := fun h => distinct.1 (List.mem_map.2 ⟨d, hd, h⟩)
      rw [contribute, listed_replaceSource, OrderedMap.get?_insert, if_neg hne]
      exact hnew d (by simp [hd])
    have hrecord : (t.contribute c).records.get? mac =
        (latest? c.batch mac).or (t.records.get? mac) := by
      rw [contribute, get?_replaceSource, hlisted]
      simp
    rw [replay_cons, ih _ distinct.2 hrest, hrecord, List.flatMap_cons, latest?_append,
      Option.or_assoc]

/-! ### The same once more -/

/-- What a table holds of a contribution: its listing, and a record at each of its addresses. -/
structure Holds (t : Table) (c : Contribution) : Prop where
  listed : t.listed.get? c.source = some (byAddress c.batch).keys
  present : ∀ mac, c.Lists mac → mac ∈ t.records.keys

lemma Holds.contribute {t : Table} {c : Contribution} (h : t.Holds c) :
    (t.contribute c).listed = t.listed ∧ (t.contribute c).records.keys = t.records.keys := by
  refine ⟨OrderedMap.insert_of_get? h.listed, ?_⟩
  have hstale := stale_eq_nil h.listed
  have hfresh : ∀ e ∈ t.fresh (byAddress c.batch), e.1 ∈ t.records.keys := by
    intro e he
    have hmem : e.1 ∈ (byAddress c.batch).keys :=
      List.mem_map.2 ⟨e, (List.mem_filter.1 he).1, rfl⟩
    exact h.present _ (mem_keys_byAddress.1 hmem)
  simp only [Table.contribute, replaceSource, hstale]
  exact OrderedMap.keys_insertMany hfresh

lemma Holds.replay {t : Table} {cs : List Contribution} (h : ∀ c ∈ cs, t.Holds c) :
    (t.replay cs).listed = t.listed ∧ (t.replay cs).records.keys = t.records.keys := by
  induction cs generalizing t with
  | nil => exact ⟨rfl, rfl⟩
  | cons c cs ih =>
    obtain ⟨hlisted, hkeys⟩ := (h c (by simp)).contribute
    have hrest : ∀ d ∈ cs, (t.contribute c).Holds d := fun d hd =>
      ⟨by rw [hlisted]; exact (h d (by simp [hd])).listed,
        by rw [hkeys]; exact (h d (by simp [hd])).present⟩
    exact ⟨(ih hrest).1.trans hlisted, (ih hrest).2.trans hkeys⟩

lemma Owned.holds_replay {t : Table} (h : t.Owned) {cs : List Contribution}
    (tagged : ∀ c ∈ cs, c.Tagged) (distinct : (cs.map (·.source)).Nodup) :
    ∀ c ∈ cs, (t.replay cs).Holds c := by
  intro c hc
  refine ⟨?_, fun mac hmac => ?_⟩
  · obtain ⟨d, hd⟩ : ∃ d, cs.find? (·.source = c.source) = some d := by
      rw [← Option.isSome_iff_exists, List.find?_isSome]
      exact ⟨c, hc, by simp⟩
    have hsource : d.source = c.source := by simpa using List.find?_some hd
    have hdc : d = c := List.inj_on_of_nodup_map distinct (List.mem_of_find?_eq_some hd) hc hsource
    rw [get?_listed_replay t distinct, hd, hdc]
    rfl
  · obtain ⟨r, hr, hmac⟩ := hmac
    obtain ⟨d, hd, -⟩ := exists_latest? ⟨r, List.mem_flatMap.2 ⟨c, hc, hr⟩, hmac⟩
    rw [← OrderedMap.contains_iff, OrderedMap.contains,
      h.get?_replay_of_nodup tagged distinct, hd, Option.some_or, Option.isSome_some]

/-- **The same once more changes nothing.** -/
theorem Owned.replay_replay {t : Table} (h : t.Owned) {cs : List Contribution}
    (tagged : ∀ c ∈ cs, c.Tagged) (distinct : (cs.map (·.source)).Nodup) :
    (t.replay cs).replay cs = t.replay cs := by
  have howned : (t.replay cs).Owned := h.replay tagged
  obtain ⟨hlisted, hkeys⟩ := Holds.replay (h.holds_replay tagged distinct)
  -- a record may be written over on the way and back, but the keys keep their places
  have hrecords : ((t.replay cs).replay cs).records = (t.replay cs).records := by
    refine OrderedMap.ext_get? hkeys fun mac => ?_
    rw [howned.get?_replay_of_nodup tagged distinct, h.get?_replay_of_nodup tagged distinct]
    cases latest? (cs.flatMap (·.batch)) mac with
    | none => simp [Option.filter_filter]
    | some r => rfl
  exact eq_of_records_of_listed hrecords hlisted

end Table

end RouterAgent.Client
