import Mathlib.Data.List.Sort
import RouterAgent.Proofs.Table.Merge

/-!
The order of contributions.

Contributions of two files may be put in one after the other or the other way round, as long as no
address is in both batches. Who owned an address before, and who gives it up, does not matter: both
files give up what they owned, and each address of the two batches is decided by the one batch that
lists it.
-/

namespace RouterAgent.Client.Table

lemma Owned.snapshot_eq {t u : Table} (ht : t.Owned) (hu : u.Owned)
    (h : ∀ mac, t.records.get? mac = u.records.get? mac) : t.snapshot = u.snapshot := by
  have hasymm : Std.Asymm fun a b : Client => a.mac < b.mac := ⟨fun _ _ => lt_asymm⟩
  refine ht.pairwise_snapshot.eq_of_mem_iff hu.pairwise_snapshot fun r => ?_
  rw [ht.mem_snapshot, hu.mem_snapshot, h]

variable {a b : Contribution}

lemma latest?_comm (disjoint : ∀ mac, a.Lists mac → ¬ b.Lists mac) (mac : String) :
    latest? (a.batch ++ b.batch) mac = latest? (b.batch ++ a.batch) mac := by
  rw [latest?_append, latest?_append]
  by_cases ha : a.Lists mac
  · rw [Contribution.latest?_eq_none_iff.2 (disjoint mac ha), Option.none_or, Option.or_none]
  · rw [Contribution.latest?_eq_none_iff.2 ha, Option.none_or, Option.or_none]

lemma Owned.get?_replay_pair {t : Table} (h : t.Owned) (ha : a.Tagged) (hb : b.Tagged)
    (sources : a.source ≠ b.source) (mac : String) :
    (t.replay [a, b]).records.get? mac =
      (latest? (a.batch ++ b.batch) mac).or
        ((t.records.get? mac).filter fun r => r.source ≠ a.source ∧ r.source ≠ b.source) := by
  have tagged : ∀ c ∈ [a, b], c.Tagged := by simp [ha, hb]
  rw [h.get?_replay_of_nodup tagged (by simpa using sources)]
  simp

lemma get?_listed_replay_swap (t : Table) (sources : a.source ≠ b.source) (source : String) :
    (t.replay [a, b]).listed.get? source = (t.replay [b, a]).listed.get? source := by
  have hab : ([a, b].map (·.source)).Nodup := by simpa using sources
  have hba : ([b, a].map (·.source)).Nodup := by simpa using sources.symm
  rw [get?_listed_replay t hab, get?_listed_replay t hba]
  by_cases hsa : a.source = source
  · have hsb : b.source ≠ source := fun hsb => sources (hsa.trans hsb.symm)
    simp [hsa, hsb]
  · by_cases hsb : b.source = source <;> simp [hsa, hsb]

/-- **Contributions of different files commute.** After any history, two contributions of different
files whose batches have no address in common leave the same records and the same listings in either
order, and so the same snapshot. -/
theorem contributions_commute (cs : List Contribution) (tagged : ∀ c ∈ cs, c.Tagged)
    (ha : a.Tagged) (hb : b.Tagged) (sources : a.source ≠ b.source)
    (disjoint : ∀ mac, a.Lists mac → ¬ b.Lists mac) :
    (∀ mac, (empty.replay (cs ++ [a, b])).records.get? mac =
      (empty.replay (cs ++ [b, a])).records.get? mac) ∧
    (∀ source, (empty.replay (cs ++ [a, b])).listed.get? source =
      (empty.replay (cs ++ [b, a])).listed.get? source) ∧
    (empty.replay (cs ++ [a, b])).snapshot = (empty.replay (cs ++ [b, a])).snapshot := by
  have howned : (empty.replay cs).Owned := owned_empty.replay tagged
  have hrecords (mac : String) : ((empty.replay cs).replay [a, b]).records.get? mac =
      ((empty.replay cs).replay [b, a]).records.get? mac := by
    rw [howned.get?_replay_pair ha hb sources, howned.get?_replay_pair hb ha sources.symm,
      latest?_comm disjoint]
    simp only [and_comm]
  simp only [replay_append]
  have hab : ((empty.replay cs).replay [a, b]).Owned := howned.replay (by simp [ha, hb])
  have hba : ((empty.replay cs).replay [b, a]).Owned := howned.replay (by simp [ha, hb])
  exact ⟨hrecords, get?_listed_replay_swap _ sources, hab.snapshot_eq hba hrecords⟩

def overlapping : List Contribution :=
  [⟨"/run/a", [⟨"aa:00:00:00:00:01", "10.0.0.1", "tv", none, "/run/a"⟩,
      ⟨"aa:00:00:00:00:02", "10.0.0.2", "nas", none, "/run/a"⟩]⟩,
   ⟨"/run/b", [⟨"aa:00:00:00:00:02", "10.0.1.2", "nas", none, "/run/b"⟩]⟩]

def handOver : Contribution × Contribution :=
  (⟨"/run/a", [⟨"aa:00:00:00:00:02", "10.0.0.2", "nas", none, "/run/a"⟩]⟩,
   ⟨"/run/b", [⟨"aa:00:00:00:00:01", "10.0.1.1", "tv", none, "/run/b"⟩]⟩)

theorem contributions_commute_handOver :
    (∀ c ∈ overlapping, c.Tagged) ∧ handOver.1.Tagged ∧ handOver.2.Tagged ∧
    handOver.1.source ≠ handOver.2.source ∧
    (empty.replay (overlapping ++ [handOver.1, handOver.2])).snapshot =
      (empty.replay (overlapping ++ [handOver.2, handOver.1])).snapshot := by
  have tagged : ∀ c ∈ overlapping, c.Tagged := by decide
  have ha : handOver.1.Tagged := by decide
  have hb : handOver.2.Tagged := by decide
  have sources : handOver.1.source ≠ handOver.2.source := by decide
  have disjoint : ∀ mac, handOver.1.Lists mac → ¬ handOver.2.Lists mac := by
    rintro mac ⟨r, hr, rfl⟩ ⟨d, hd, hmac⟩
    obtain rfl := List.mem_singleton.1 hr
    obtain rfl := List.mem_singleton.1 hd
    exact absurd hmac (by decide)
  exact ⟨tagged, ha, hb, sources,
    (contributions_commute overlapping tagged ha hb sources disjoint).2.2⟩

end RouterAgent.Client.Table
