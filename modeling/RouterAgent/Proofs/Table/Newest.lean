import RouterAgent.Proofs.Table.History

/-!
What the newest contribution of a file leaves in the table.

The listing of a file is that of its newest batch, and a record that the file owns comes from this
batch. An address of the batch has its record unless a later batch of another file lists it.
-/

namespace RouterAgent.Client.Table

lemma exists_newest {cs : List Contribution} {c : Contribution} (hc : c ∈ cs)
    (hsame : ∀ d ∈ cs, d.source = c.source → d = c) : ∃ later, Newest cs c later := by
  induction cs with
  | nil => simp at hc
  | cons d cs ih =>
    by_cases hcs : c ∈ cs
    · obtain ⟨later, ⟨earlier, hsplit⟩, hothers⟩ := ih hcs fun e he => hsame e (by simp [he])
      exact ⟨later, ⟨d :: earlier, by rw [hsplit]; rfl⟩, hothers⟩
    · obtain rfl : c = d := (List.mem_cons.1 hc).resolve_right hcs
      have hothers : ∀ e ∈ cs, e.source ≠ c.source := by
        intro e he hes
        have hec : e = c := hsame e (by simp [he]) hes
        exact hcs (hec ▸ he)
      exact ⟨cs, ⟨[], rfl⟩, hothers⟩

lemma Newest.append_left {cs : List Contribution} {c : Contribution} {later : List Contribution}
    (h : Newest cs c later) (bs : List Contribution) : Newest (bs ++ cs) c later := by
  obtain ⟨⟨earlier, rfl⟩, hothers⟩ := h
  exact ⟨⟨bs ++ earlier, by rw [List.append_assoc]⟩, hothers⟩

lemma get?_listed_replay_of_others (t : Table) {cs : List Contribution} {source : String}
    (hothers : ∀ c ∈ cs, c.source ≠ source) :
    (t.replay cs).listed.get? source = t.listed.get? source := by
  induction cs generalizing t with
  | nil => rfl
  | cons c cs ih =>
    have hc : source ≠ c.source := (hothers c (by simp)).symm
    rw [replay_cons, ih _ fun d hd => hothers d (by simp [hd]), contribute, listed_replaceSource,
      OrderedMap.get?_insert, if_neg hc]

lemma Newest.get?_listed {cs : List Contribution} {c : Contribution} {later : List Contribution}
    (h : Newest cs c later) (t : Table) :
    (t.replay cs).listed.get? c.source = some (byAddress c.batch).keys := by
  obtain ⟨⟨earlier, rfl⟩, hothers⟩ := h
  rw [replay_append, replay_cons, get?_listed_replay_of_others _ hothers, contribute,
    listed_replaceSource, OrderedMap.get?_insert, if_pos rfl]

def OwnedFrom (t : Table) (c : Contribution) : Prop :=
  ∀ mac r, t.records.get? mac = some r → r.source = c.source → latest? c.batch mac = some r

lemma Owned.ownedFrom_contribute {t : Table} (h : t.Owned) (c : Contribution) :
    (t.contribute c).OwnedFrom c := by
  intro mac r hr hs
  rw [h.get?_contribute, Option.or_eq_some_iff, Option.filter_eq_some_iff] at hr
  rcases hr with hr | ⟨-, -, hne⟩
  · exact hr
  · exact absurd hs (of_decide_eq_true hne)

lemma OwnedFrom.contribute {t : Table} {c : Contribution} (hc : t.OwnedFrom c) (h : t.Owned)
    {d : Contribution} (hd : d.Tagged) (hne : d.source ≠ c.source) :
    (t.contribute d).OwnedFrom c := by
  intro mac r hr hs
  rw [h.get?_contribute, Option.or_eq_some_iff, Option.filter_eq_some_iff] at hr
  rcases hr with hr | ⟨-, hr, -⟩
  · have hds : r.source = d.source := hd.source_of_latest? hr
    exact absurd (hds.symm.trans hs) hne
  · exact hc mac r hr hs

lemma OwnedFrom.replay {t : Table} {c : Contribution} (hc : t.OwnedFrom c) (h : t.Owned)
    {cs : List Contribution} (tagged : ∀ d ∈ cs, d.Tagged)
    (hothers : ∀ d ∈ cs, d.source ≠ c.source) : (t.replay cs).OwnedFrom c := by
  induction cs generalizing t with
  | nil => exact hc
  | cons d cs ih =>
    have hd : d.Tagged := tagged d (by simp)
    exact ih (hc.contribute h hd (hothers d (by simp))) (h.contribute hd)
      (fun e he => tagged e (by simp [he])) fun e he => hothers e (by simp [he])

/-- **What the newest contribution leaves.** The records that the file owns are of its newest
batch, and of these only those are missing that another file listed later. -/
lemma Newest.records {cs : List Contribution} {c : Contribution} {later : List Contribution}
    (h : Newest cs c later) (tagged : ∀ d ∈ cs, d.Tagged) :
    (empty.replay cs).OwnedFrom c ∧
    ∀ mac, c.Lists mac → (∀ d ∈ later, ¬ d.Lists mac) →
      (empty.replay cs).records.get? mac = latest? c.batch mac := by
  obtain ⟨⟨earlier, rfl⟩, hothers⟩ := h
  have hearlier : (empty.replay earlier).Owned :=
    owned_empty.replay fun d hd => tagged d (by simp [hd])
  have hc : c.Tagged := tagged c (by simp)
  refine ⟨?_, fun mac hl hn => ?_⟩
  · rw [replay_append, replay_cons]
    exact (hearlier.ownedFrom_contribute c).replay (hearlier.contribute hc)
      (fun d hd => tagged d (by simp [hd])) hothers
  · have hnone : ¬ ∃ d ∈ later, d.source = c.source := by
      rintro ⟨d, hd, hs⟩
      exact hothers d hd hs
    rw [get?_replay_of_last_listing tagged hl hn, if_neg hnone]

lemma get?_replay_of_only {cs : List Contribution} {c : Contribution} (tagged : ∀ d ∈ cs, d.Tagged)
    (hc : c ∈ cs) (hsame : ∀ d ∈ cs, d.source = c.source → d = c) {mac : String}
    (hl : c.Lists mac) (honly : ∀ d ∈ cs, d.Lists mac → d = c) :
    (empty.replay cs).records.get? mac = latest? c.batch mac := by
  obtain ⟨later, hnewest⟩ := exists_newest hc hsame
  refine (hnewest.records tagged).2 mac hl fun d hd hdl => ?_
  obtain ⟨⟨earlier, hsplit⟩, hothers⟩ := hnewest
  have hmem : d ∈ cs := by simp [hsplit, hd]
  exact hothers d hd (congrArg Contribution.source (honly d hmem hdl))

/-- Histories that make the same contributions, one of each file, come to the same at an address
that no two of them list. -/
lemma get?_replay_congr {cs ds : List Contribution} (hmem : ∀ d, d ∈ cs ↔ d ∈ ds)
    (tagged : ∀ d ∈ ds, d.Tagged) (hsame : ∀ c ∈ ds, ∀ d ∈ ds, d.source = c.source → d = c)
    {mac : String} (honly : ∀ c ∈ ds, ∀ d ∈ ds, c.Lists mac → d.Lists mac → d = c) :
    (empty.replay cs).records.get? mac = (empty.replay ds).records.get? mac := by
  by_cases hex : ∃ c ∈ ds, c.Lists mac
  · obtain ⟨c, hc, hl⟩ := hex
    rw [get?_replay_of_only tagged hc (hsame c hc) hl fun d hd => honly c hc d hd hl]
    simp only [← hmem] at tagged hsame honly hc
    exact get?_replay_of_only tagged hc (hsame c hc) hl fun d hd => honly c hc d hd hl
  · push Not at hex
    rw [get?_replay_unlisted tagged hex]
    simp only [← hmem] at tagged hex
    exact get?_replay_unlisted tagged hex

end RouterAgent.Client.Table
