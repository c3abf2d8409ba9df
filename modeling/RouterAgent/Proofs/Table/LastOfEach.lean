import RouterAgent.Proofs.OrderedMap.OfList
import RouterAgent.Proofs.Table.Ownership

/-!
The records of a batch by address, as a list.

Each address keeps the place at which it appears first, and of its records the last one is kept.
-/

namespace RouterAgent

lemma eraseDups_filter {α : Type*} [DecidableEq α] (p : α → Bool) (as : List α) :
    (as.filter p).eraseDups = as.eraseDups.filter p := by
  induction as using List.reverseRecOn with
  | nil => rfl
  | append_singleton as a ih =>
    rw [List.filter_append, List.eraseDups_append, List.eraseDups_append, List.filter_append, ih]
    by_cases ha : a ∈ as <;> cases hp : p a <;>
      simp [List.removeAll, List.eraseDups_cons, ha, hp]

namespace Client

/-- One record for each address of a batch, in the order in which the addresses first appear; of
several records of one address the last one. -/
def lastOfEach (batch : List Client) : List Client :=
  (batch.map (·.mac)).eraseDups.filterMap (latest? batch)

lemma keys_byAddress (batch : List Client) :
    (Table.byAddress batch).keys = (batch.map (·.mac)).eraseDups := by
  rw [Table.byAddress, OrderedMap.keys_ofList, List.map_map]
  rfl

lemma values_byAddress (batch : List Client) : (Table.byAddress batch).values = lastOfEach batch := by
  rw [OrderedMap.values_eq_filterMap, keys_byAddress, lastOfEach]
  exact List.filterMap_congr fun mac _ => Table.get?_byAddress batch mac

lemma mem_lastOfEach {batch : List Client} {r : Client} :
    r ∈ lastOfEach batch ↔ latest? batch r.mac = some r := by
  rw [lastOfEach, List.mem_filterMap]
  constructor
  · rintro ⟨mac, -, hr⟩
    obtain rfl : r.mac = mac := (mem_of_latest? hr).2
    exact hr
  · intro hr
    exact ⟨r.mac, by simpa using ⟨r, (mem_of_latest? hr).1, rfl⟩, hr⟩

lemma mem_of_mem_lastOfEach {batch : List Client} {r : Client} (h : r ∈ lastOfEach batch) :
    r ∈ batch :=
  (mem_of_latest? (mem_lastOfEach.1 h)).1

lemma mem_of_mem_values_byAddress {batch : List Client} {r : Client}
    (h : r ∈ (Table.byAddress batch).values) : r ∈ batch := by
  rw [values_byAddress] at h
  exact mem_of_mem_lastOfEach h

lemma latest?_lastOfEach (batch : List Client) (mac : String) :
    latest? (lastOfEach batch) mac = latest? batch mac := by
  cases hlast : latest? (lastOfEach batch) mac with
  | some r =>
    obtain ⟨hr, rfl⟩ := mem_of_latest? hlast
    exact (mem_lastOfEach.1 hr).symm
  | none =>
    rw [latest?_eq_none_iff] at hlast
    symm
    by_contra hne
    obtain ⟨r, hr⟩ := Option.ne_none_iff_exists'.1 hne
    obtain rfl : r.mac = mac := (mem_of_latest? hr).2
    exact hlast r (mem_lastOfEach.2 hr) rfl

lemma latest?_middle (as bs : List Client) (c : Client) (mac : String) :
    latest? (as ++ c :: bs) mac =
      (latest? bs mac).or (if c.mac = mac then some c else latest? as mac) := by
  rw [latest?_append, ← List.singleton_append, latest?_append, Option.or_assoc]
  by_cases h : c.mac = mac <;> simp [latest?, h]

lemma eraseDups_macs_eq {batch : List Client} {r : Client} (h : r ∈ batch) :
    ∃ before after, (batch.map (·.mac)).eraseDups = before ++ r.mac :: after ∧
      r.mac ∉ before ∧ r.mac ∉ after := by
  have hmem : r.mac ∈ (batch.map (·.mac)).eraseDups := by simpa using ⟨r, h, rfl⟩
  have hnodup : (batch.map (·.mac)).eraseDups.Nodup :=
    keys_byAddress batch ▸ (Table.byAddress batch).nodup
  obtain ⟨before, after, heq⟩ := List.append_of_mem hmem
  rw [heq, List.nodup_middle, List.nodup_cons, List.mem_append, not_or] at hnodup
  exact ⟨before, after, heq, hnodup.1⟩

lemma lastOfEach_exchange {c d : Client} (h : d.mac = c.mac) (as bs : List Client) :
    lastOfEach (as ++ c :: bs) = lastOfEach (as ++ d :: bs) ∨
      ∃ before after, lastOfEach (as ++ c :: bs) = before ++ c :: after ∧
        lastOfEach (as ++ d :: bs) = before ++ d :: after := by
  have hmacs : (as ++ d :: bs).map (·.mac) = (as ++ c :: bs).map (·.mac) := by simp [h]
  have hothers {mac : String} (hmac : mac ≠ c.mac) :
      latest? (as ++ d :: bs) mac = latest? (as ++ c :: bs) mac := by
    rw [latest?_middle, latest?_middle, h, if_neg hmac.symm, if_neg hmac.symm]
  rw [lastOfEach, lastOfEach, hmacs]
  cases hlater : latest? bs c.mac with
  | some r =>
    -- a later record of the address hides both
    left
    refine List.filterMap_congr fun mac _ => ?_
    by_cases hmac : mac = c.mac
    · rw [latest?_middle, latest?_middle, hmac, hlater, Option.some_or, Option.some_or]
    · exact (hothers hmac).symm
  | none =>
    right
    have hc : latest? (as ++ c :: bs) c.mac = some c := by simp [latest?_middle, hlater]
    have hd : latest? (as ++ d :: bs) c.mac = some d := by simp [latest?_middle, hlater, h]
    obtain ⟨before, after, heq, hbefore, hafter⟩ :=
      eraseDups_macs_eq (show c ∈ as ++ c :: bs by simp)
    have hkept {macs : List String} (hne : c.mac ∉ macs) :
        macs.filterMap (latest? (as ++ d :: bs)) = macs.filterMap (latest? (as ++ c :: bs)) :=
      List.filterMap_congr fun mac hmac => hothers fun he => hne (he ▸ hmac)
    refine ⟨before.filterMap (latest? (as ++ c :: bs)), after.filterMap (latest? (as ++ c :: bs)),
      ?_, ?_⟩
    · rw [heq, List.filterMap_append, List.filterMap_cons_some hc]
    · rw [heq, List.filterMap_append, List.filterMap_cons_some hd, hkept hbefore, hkept hafter]

/-! ### Two batches -/

lemma map_mac_lastOfEach (batch : List Client) :
    (lastOfEach batch).map (·.mac) = (batch.map (·.mac)).eraseDups := by
  rw [lastOfEach, List.map_filterMap]
  refine (List.filterMap_congr fun mac hmac => ?_).trans List.filterMap_some
  obtain ⟨r, hr, hmac⟩ := exists_latest? (List.mem_map.1 (List.mem_eraseDups.1 hmac))
  rw [hr, Option.map_some, hmac]

/-- The records of one list and of another one: a record of the second list stands in the place of
the record of its address, and the records of new addresses come last. -/
def merge (as bs : List Client) : List Client :=
  as.map (fun r => (latest? bs r.mac).getD r) ++ bs.filter fun r => r.mac ∉ as.map (·.mac)

/-- **One batch after another.** What is kept of both is what is kept of each, merged. -/
lemma lastOfEach_append (as bs : List Client) :
    lastOfEach (as ++ bs) = merge (lastOfEach as) (lastOfEach bs) := by
  have hold : (as.map (·.mac)).eraseDups.filterMap (latest? (as ++ bs)) =
      (lastOfEach as).map fun r => (latest? (lastOfEach bs) r.mac).getD r := by
    simp only [latest?_lastOfEach]
    rw [lastOfEach, List.map_filterMap]
    refine List.filterMap_congr fun mac hmac => ?_
    obtain ⟨r, hr, rfl⟩ := exists_latest? (List.mem_map.1 (List.mem_eraseDups.1 hmac))
    rw [latest?_append, hr, Option.map_some, Option.or_some]
  have hnew : ((bs.map (·.mac)).removeAll (as.map (·.mac))).eraseDups.filterMap
      (latest? (as ++ bs)) =
      (lastOfEach bs).filter fun r => r.mac ∉ (lastOfEach as).map (·.mac) := by
    simp only [map_mac_lastOfEach, List.mem_eraseDups]
    rw [List.removeAll, eraseDups_filter, List.filterMap_filter, lastOfEach, List.filter_filterMap]
    refine List.filterMap_congr fun mac hmac => ?_
    obtain ⟨r, hr, rfl⟩ := exists_latest? (List.mem_map.1 (List.mem_eraseDups.1 hmac))
    rw [latest?_append, hr]
    by_cases h : r.mac ∈ as.map (·.mac) <;> simp [h, Option.filter]
  calc lastOfEach (as ++ bs)
      = (as.map (·.mac)).eraseDups.filterMap (latest? (as ++ bs)) ++
          ((bs.map (·.mac)).removeAll (as.map (·.mac))).eraseDups.filterMap
            (latest? (as ++ bs)) := by
        rw [lastOfEach, List.map_append, List.eraseDups_append, List.filterMap_append]
    _ = merge (lastOfEach as) (lastOfEach bs) := by rw [hold, hnew, merge]

end Client

end RouterAgent
