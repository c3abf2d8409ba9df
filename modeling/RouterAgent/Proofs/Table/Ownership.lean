import Mathlib.Data.List.Basic
import RouterAgent.Client

/-!
Who owns a record of the table.

A contribution is a file with the batch that one reading of it gave. A record belongs to the file
that put it in last; as long as the table is fed by tagged contributions, the owner's newest batch
lists the record, and so a contribution changes the table address by address.
-/

namespace RouterAgent.Client

/-- The record of an address in a batch; of several the last one counts. -/
def latest? (batch : List Client) (mac : String) : Option Client :=
  batch.reverse.find? (·.mac = mac)

lemma latest?_eq_none_iff {batch : List Client} {mac : String} :
    latest? batch mac = none ↔ ∀ r ∈ batch, r.mac ≠ mac := by
  simp [latest?]

lemma mem_of_latest? {batch : List Client} {mac : String} {r : Client}
    (h : latest? batch mac = some r) : r ∈ batch ∧ r.mac = mac := by
  have hm := List.mem_of_find?_eq_some h
  have hp := List.find?_some h
  exact ⟨List.mem_reverse.1 hm, of_decide_eq_true hp⟩

lemma exists_latest? {batch : List Client} {mac : String} (h : ∃ r ∈ batch, r.mac = mac) :
    ∃ r, latest? batch mac = some r ∧ r.mac = mac := by
  have hsome : latest? batch mac ≠ none := by
    rw [Ne, latest?_eq_none_iff]
    push Not
    exact h
  obtain ⟨r, hr⟩ := Option.ne_none_iff_exists'.1 hsome
  exact ⟨r, hr, (mem_of_latest? hr).2⟩

lemma latest?_append (as bs : List Client) (mac : String) :
    latest? (as ++ bs) mac = (latest? bs mac).or (latest? as mac) := by
  simp [latest?, List.find?_append]

structure Contribution where
  source : String
  batch : List Client
deriving DecidableEq

namespace Contribution

def Lists (c : Contribution) (mac : String) : Prop := ∃ r ∈ c.batch, r.mac = mac

/-- Every record of the batch names the file that lists it. -/
def Tagged (c : Contribution) : Prop := ∀ r ∈ c.batch, r.source = c.source

instance (c : Contribution) (mac : String) : Decidable (c.Lists mac) :=
  inferInstanceAs (Decidable (∃ r ∈ c.batch, r.mac = mac))

instance (c : Contribution) : Decidable c.Tagged :=
  inferInstanceAs (Decidable (∀ r ∈ c.batch, r.source = c.source))

lemma latest?_eq_none_iff {c : Contribution} {mac : String} :
    latest? c.batch mac = none ↔ ¬ c.Lists mac := by
  simp [Client.latest?_eq_none_iff, Lists]

lemma Tagged.source_of_latest? {c : Contribution} (hc : c.Tagged) {mac : String} {r : Client}
    (h : latest? c.batch mac = some r) : r.source = c.source :=
  hc r (mem_of_latest? h).1

end Contribution

namespace Table

/-! ### One contribution -/

def contribute (t : Table) (c : Contribution) : Table := (t.replaceSource c.source c.batch).2

lemma get?_byAddress (batch : List Client) (mac : String) :
    (byAddress batch).get? mac = latest? batch mac := by
  rw [byAddress, OrderedMap.ofList, OrderedMap.get?_insertMany, OrderedMap.get?_empty,
    Option.or_none, ← List.map_reverse, List.find?_map, Option.map_map]
  simp [latest?, Function.comp_def]

lemma mem_keys_byAddress {batch : List Client} {mac : String} :
    mac ∈ (byAddress batch).keys ↔ ∃ r ∈ batch, r.mac = mac := by
  rw [← not_iff_not, ← OrderedMap.get?_eq_none_iff, get?_byAddress, latest?_eq_none_iff]
  simp

lemma get?_fresh (t : Table) (incoming : OrderedMap String Client) (mac : String) :
    ((t.fresh incoming).reverse.find? (·.1 = mac)).map Prod.snd =
      (incoming.get? mac).filter fun r => t.records.get? mac ≠ some r := by
  simp [fresh, OrderedMap.find?_filter_entries]

lemma mem_stale {t : Table} {source : String} {incoming : OrderedMap String Client}
    {mac : String} : mac ∈ t.stale source incoming ↔
      mac ∈ t.listedBy source ∧ incoming.get? mac = none ∧
        ∃ r, t.records.get? mac = some r ∧ r.source = source := by
  simp [stale, OrderedMap.contains, Option.any_eq_true]

/-- **One contribution, address by address.** The batch decides about its own addresses; of the
others the source gives up those that it listed and still owns. -/
theorem get?_replaceSource (t : Table) (source : String) (batch : List Client) (mac : String) :
    (t.replaceSource source batch).2.records.get? mac =
      (latest? batch mac).or
        (if mac ∈ t.listedBy source then (t.records.get? mac).filter (·.source ≠ source)
          else t.records.get? mac) := by
  simp only [replaceSource, OrderedMap.get?_insertMany, OrderedMap.get?_eraseMany, get?_fresh,
    mem_stale, get?_byAddress]
  cases hb : latest? batch mac with
  | none =>
    cases hr : t.records.get? mac with
    | none => simp
    | some r => by_cases hs : r.source = source <;> simp [hs, Option.filter]
  | some r =>
    by_cases hr : t.records.get? mac = some r <;> simp [hr, Option.filter]

lemma listed_replaceSource (t : Table) (source : String) (batch : List Client) :
    (t.replaceSource source batch).2.listed =
      t.listed.insert source (byAddress batch).keys := rfl

lemma mem_listedBy_replaceSource (t : Table) (source : String) (batch : List Client)
    (s mac : String) : mac ∈ (t.replaceSource source batch).2.listedBy s ↔
      if s = source then ∃ r ∈ batch, r.mac = mac else mac ∈ t.listedBy s := by
  rw [listedBy, listed_replaceSource, OrderedMap.get?_insert]
  split
  · simp [mem_keys_byAddress]
  · simp [listedBy]

/-! ### The owner's listing -/

/-- Every record stands at its own address, and its owner's newest batch lists the address. -/
structure Owned (t : Table) : Prop where
  mac_eq : ∀ {mac r}, t.records.get? mac = some r → r.mac = mac
  listed : ∀ {mac r}, t.records.get? mac = some r → mac ∈ t.listedBy r.source

lemma owned_empty : empty.Owned :=
  ⟨fun h => by simp [empty, OrderedMap.get?_empty] at h,
    fun h => by simp [empty, OrderedMap.get?_empty] at h⟩

lemma Owned.get?_contribute {t : Table} (h : t.Owned) (c : Contribution) (mac : String) :
    (t.contribute c).records.get? mac =
      (latest? c.batch mac).or ((t.records.get? mac).filter (·.source ≠ c.source)) := by
  rw [contribute, get?_replaceSource]
  cases hr : t.records.get? mac with
  | none => simp
  | some r =>
    by_cases hs : r.source = c.source
    · -- the source's own record: its listing has the address, so it is given up
      have hl : mac ∈ t.listedBy c.source := hs ▸ h.listed hr
      simp [hl]
    · simp [hs, Option.filter]

lemma Owned.contribute {t : Table} (h : t.Owned) {c : Contribution} (hc : c.Tagged) :
    (t.contribute c).Owned := by
  refine ⟨fun {mac r} hr => ?_, fun {mac r} hr => ?_⟩ <;>
    rw [h.get?_contribute, Option.or_eq_some_iff, Option.filter_eq_some_iff] at hr
  · rcases hr with hr | ⟨-, hr, -⟩
    · exact (mem_of_latest? hr).2
    · exact h.mac_eq hr
  · rw [Table.contribute, mem_listedBy_replaceSource]
    rcases hr with hr | ⟨-, hr, hs⟩
    · rw [if_pos (hc.source_of_latest? hr)]
      exact ⟨r, mem_of_latest? hr⟩
    · rw [if_neg (of_decide_eq_true hs)]
      exact h.listed hr

end Table

end RouterAgent.Client
