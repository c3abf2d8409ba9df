import Mathlib.Data.String.Basic
import RouterAgent.Proofs.Table.Ownership

/-!
What a history of contributions leaves in the table.

The last contribution that lists an address decides about it: its record stands until the same file
contributes again. What an earlier contribution of another file says is forgotten, so a file that
takes back an address takes it from all.
-/

namespace RouterAgent

lemma pairwise_mergeSort_of_nodup {key : α → String} {as : List α} (h : (as.map key).Nodup) :
    (as.mergeSort fun a b => key a ≤ key b).Pairwise fun a b => key a < key b := by
  have hle : (as.mergeSort fun a b => key a ≤ key b).Pairwise
      fun a b => decide (key a ≤ key b) = true := by
    apply List.pairwise_mergeSort
    · intro a b c hab hbc
      exact decide_eq_true (le_trans (of_decide_eq_true hab) (of_decide_eq_true hbc))
    · intro a b
      simpa using le_total (key a) (key b)
  have hne : (as.mergeSort fun a b => key a ≤ key b).Pairwise fun a b => key a ≠ key b := by
    have hperm := (List.mergeSort_perm as fun a b => key a ≤ key b).map key
    exact List.pairwise_map.1 (hperm.nodup_iff.2 h)
  exact (hle.and hne).imp fun hab => lt_of_le_of_ne (of_decide_eq_true hab.1) hab.2

lemma exists_last {q : α → Prop} {as : List α} (h : ∃ a ∈ as, q a) :
    ∃ bs a cs, as = bs ++ a :: cs ∧ q a ∧ ∀ c ∈ cs, ¬ q c := by
  induction as with
  | nil => simp at h
  | cons b as ih =>
    by_cases has : ∃ a ∈ as, q a
    · obtain ⟨bs, a, cs, rfl, ha, hn⟩ := ih has
      exact ⟨b :: bs, a, cs, rfl, ha, hn⟩
    · push Not at has
      obtain ⟨a, ha, hq⟩ := h
      rcases List.mem_cons.1 ha with rfl | ha
      · exact ⟨[], a, as, rfl, hq, has⟩
      · exact absurd hq (has a ha)

namespace Client.Table

def replay (t : Table) (cs : List Contribution) : Table := cs.foldl contribute t

@[simp] lemma replay_nil (t : Table) : t.replay [] = t := rfl
@[simp] lemma replay_cons (t : Table) (c : Contribution) (cs : List Contribution) :
    t.replay (c :: cs) = (t.contribute c).replay cs := rfl
lemma replay_append (t : Table) (cs ds : List Contribution) :
    t.replay (cs ++ ds) = (t.replay cs).replay ds := by
  simp [replay, List.foldl_append]

lemma Owned.replay {t : Table} (h : t.Owned) {cs : List Contribution}
    (hc : ∀ c ∈ cs, c.Tagged) : (t.replay cs).Owned := by
  induction cs generalizing t with
  | nil => exact h
  | cons c cs ih =>
    exact ih (h.contribute (hc c (by simp))) fun d hd => hc d (by simp [hd])

lemma Owned.get?_replay_of_not_lists {t : Table} (h : t.Owned) {cs : List Contribution}
    (hc : ∀ c ∈ cs, c.Tagged) {mac : String} (hn : ∀ c ∈ cs, ¬ c.Lists mac) :
    (t.replay cs).records.get? mac =
      (t.records.get? mac).filter fun r => cs.all fun c => c.source ≠ r.source := by
  induction cs generalizing t with
  | nil => cases hr : t.records.get? mac <;> simp [hr, Option.filter]
  | cons c cs ih =>
    have hl : latest? c.batch mac = none := Contribution.latest?_eq_none_iff.2 (hn c (by simp))
    rw [replay_cons, ih (h.contribute (hc c (by simp))) (fun d hd => hc d (by simp [hd]))
      (fun d hd => hn d (by simp [hd])), h.get?_contribute, hl, Option.none_or,
      Option.filter_filter]
    congr 1
    funext r
    simp [eq_comm]

/-! ### The snapshot -/

lemma Owned.map_mac_values {t : Table} (h : t.Owned) :
    t.records.values.map (·.mac) = t.records.keys := by
  rw [OrderedMap.values, OrderedMap.keys, List.map_map, List.map_inj_left]
  intro e he
  exact h.mac_eq (OrderedMap.get?_eq_some_iff.2 he)

lemma Owned.mem_snapshot {t : Table} (h : t.Owned) {r : Client} :
    r ∈ t.snapshot ↔ t.records.get? r.mac = some r := by
  rw [snapshot, List.mem_mergeSort, OrderedMap.values, List.mem_map, OrderedMap.get?_eq_some_iff]
  constructor
  · rintro ⟨⟨mac, r⟩, he, rfl⟩
    have hm : r.mac = mac := h.mac_eq (OrderedMap.get?_eq_some_iff.2 he)
    simpa only [hm] using he
  · intro he
    exact ⟨_, he, rfl⟩

lemma length_snapshot (t : Table) : t.snapshot.length = t.size := by
  simp [snapshot, size, OrderedMap.size, OrderedMap.values]

lemma Owned.pairwise_snapshot {t : Table} (h : t.Owned) :
    t.snapshot.Pairwise (·.mac < ·.mac) := by
  have hnodup : (t.records.values.map (·.mac)).Nodup := by
    rw [h.map_mac_values]
    exact t.records.nodup
  exact pairwise_mergeSort_of_nodup hnodup

/-! ### The last listing -/

lemma get?_replay_unlisted {cs : List Contribution} (tagged : ∀ c ∈ cs, c.Tagged)
    {mac : String} (hn : ∀ c ∈ cs, ¬ c.Lists mac) :
    (empty.replay cs).records.get? mac = none := by
  rw [owned_empty.get?_replay_of_not_lists tagged hn, empty, OrderedMap.get?_empty,
    Option.filter_none]

lemma get?_replay_of_last_listing {earlier later : List Contribution} {c : Contribution}
    (tagged : ∀ d ∈ earlier ++ c :: later, d.Tagged) {mac : String} (hl : c.Lists mac)
    (hn : ∀ d ∈ later, ¬ d.Lists mac) :
    (empty.replay (earlier ++ c :: later)).records.get? mac =
      if ∃ d ∈ later, d.source = c.source then none else latest? c.batch mac := by
  have hearlier : (empty.replay earlier).Owned :=
    owned_empty.replay fun d hd => tagged d (by simp [hd])
  have hc : c.Tagged := tagged c (by simp)
  obtain ⟨r, hr, -⟩ := exists_latest? hl
  rw [replay_append, replay_cons, (hearlier.contribute hc).get?_replay_of_not_lists
    (fun d hd => tagged d (by simp [hd])) hn, hearlier.get?_contribute, hr, Option.some_or,
    Option.filter_some, hc.source_of_latest? hr]
  by_cases hd : ∃ d ∈ later, d.source = c.source
  · rw [if_pos hd, if_neg]
    simpa using hd
  · rw [if_neg hd, if_pos]
    simpa using hd

/-- **The last listing decides.** Of an address that no contribution lists there is no record; of
any other one there is the record of its last listing, unless the file of that listing contributed
again. The snapshot gives exactly the records of the table, in ascending order. -/
theorem last_listing_decides (cs : List Contribution) (tagged : ∀ c ∈ cs, c.Tagged) :
    (∀ mac, (∀ c ∈ cs, ¬ c.Lists mac) → (empty.replay cs).records.get? mac = none) ∧
    (∀ mac earlier c later, cs = earlier ++ c :: later → c.Lists mac →
      (∀ d ∈ later, ¬ d.Lists mac) →
      (empty.replay cs).records.get? mac =
        if ∃ d ∈ later, d.source = c.source then none else latest? c.batch mac) ∧
    (∀ r, r ∈ (empty.replay cs).snapshot ↔
      (empty.replay cs).records.get? r.mac = some r) ∧
    (empty.replay cs).snapshot.Pairwise (·.mac < ·.mac) ∧
    (empty.replay cs).size = (empty.replay cs).snapshot.length := by
  have howned : (empty.replay cs).Owned := owned_empty.replay tagged
  refine ⟨fun mac hn => get?_replay_unlisted tagged hn, ?_, fun r => howned.mem_snapshot,
    howned.pairwise_snapshot, (length_snapshot _).symm⟩
  rintro mac earlier c later rfl hl hn
  exact get?_replay_of_last_listing tagged hl hn

/-- Two files list one client, and the file that listed it last takes it back. The first file also
lists a client of its own. -/
def takenBack : List Contribution :=
  [⟨"/run/a", [⟨"aa:00:00:00:00:01", "10.0.0.1", "tv", none, "/run/a"⟩,
      ⟨"aa:00:00:00:00:02", "10.0.0.2", "nas", none, "/run/a"⟩]⟩,
   ⟨"/run/b", [⟨"aa:00:00:00:00:01", "10.0.1.1", "tv", none, "/run/b"⟩]⟩,
   ⟨"/run/b", []⟩]

theorem last_listing_decides_takenBack :
    (∀ c ∈ takenBack, c.Tagged) ∧
    (empty.replay takenBack).records.get? "aa:00:00:00:00:01" = none ∧
    (empty.replay takenBack).records.get? "aa:00:00:00:00:02" =
      some ⟨"aa:00:00:00:00:02", "10.0.0.2", "nas", none, "/run/a"⟩ := by
  have tagged : ∀ c ∈ takenBack, c.Tagged := by decide
  have h := (last_listing_decides takenBack tagged).2.1
  refine ⟨tagged, ?_, ?_⟩
  · exact (h _ [takenBack[0]] takenBack[1] [takenBack[2]] rfl (by decide) (by decide)).trans
      (if_pos (by decide))
  · exact (h _ [] takenBack[0] [takenBack[1], takenBack[2]] rfl (by decide) (by decide)).trans
      (by decide)

/-! ### Which clients are present -/

/-- The newest contribution of a file in a history, with those of other files after it. -/
structure Newest (cs : List Contribution) (c : Contribution) (later : List Contribution) :
    Prop where
  split : ∃ earlier, cs = earlier ++ c :: later
  others : ∀ d ∈ later, d.source ≠ c.source

/-- **Which clients are present.** An address has a record exactly if the newest batch of some file
lists it and no batch of another file has listed it since. -/
theorem present_iff_newest_lists_last (cs : List Contribution) (tagged : ∀ c ∈ cs, c.Tagged)
    (mac : String) :
    (empty.replay cs).records.contains mac = true ↔
      ∃ c later, Newest cs c later ∧ c.Lists mac ∧ ∀ d ∈ later, ¬ d.Lists mac := by
  rw [OrderedMap.contains]
  constructor
  · intro h
    have hex : ∃ c ∈ cs, c.Lists mac := by
      by_contra hno
      push Not at hno
      rw [get?_replay_unlisted tagged hno] at h
      simp at h
    obtain ⟨earlier, c, later, rfl, hl, hn⟩ := exists_last hex
    rw [get?_replay_of_last_listing tagged hl hn] at h
    split at h
    · simp at h
    · next hd =>
      push Not at hd
      exact ⟨c, later, ⟨⟨earlier, rfl⟩, hd⟩, hl, hn⟩
  · rintro ⟨c, later, ⟨⟨earlier, rfl⟩, hd⟩, hl, hn⟩
    rw [get?_replay_of_last_listing tagged hl hn, if_neg (by push Not; exact hd),
      Option.isSome_iff_ne_none]
    exact fun h => Contribution.latest?_eq_none_iff.1 h hl

theorem present_iff_newest_lists_last_takenBack :
    (∀ c ∈ takenBack, c.Tagged) ∧
    (empty.replay takenBack).records.contains "aa:00:00:00:00:02" = true :=
  ⟨by decide, (present_iff_newest_lists_last takenBack (by decide) _).2
    ⟨takenBack[0], [takenBack[1], takenBack[2]], ⟨⟨[], rfl⟩, by decide⟩, by decide, by decide⟩⟩

/-- A file that was shadowed gets no client back: in `takenBack` the newest batch of the first file
lists the client that the second took back, and the table does not know it. -/
theorem newest_listing_may_be_absent :
    ¬ ∀ cs : List Contribution, (∀ c ∈ cs, c.Tagged) → ∀ mac,
      (empty.replay cs).records.contains mac = true ↔
        ∃ c later, Newest cs c later ∧ c.Lists mac := by
  intro h
  have habsent : (empty.replay takenBack).records.contains "aa:00:00:00:00:01" = false := by
    decide
  have hpresent := (h takenBack (by decide) "aa:00:00:00:00:01").2
    ⟨takenBack[0], [takenBack[1], takenBack[2]], ⟨⟨[], rfl⟩, by decide⟩, by decide⟩
  rw [habsent] at hpresent
  exact Bool.false_ne_true hpresent

end Client.Table

end RouterAgent
