import Mathlib.Data.List.Nodup
import RouterAgent.Proofs.Lease.Listing

/-!
Looking up a client by an address in any spelling.

A lease file spells an address in one way, the question in another. Both are compared by the octets
that they denote, and of several records of one address the last one in the file is found.
-/

namespace RouterAgent

namespace Client.Table

def ofFile (file : String) (batch : List Client) : Table := (empty.replaceSource file batch).2

variable (file : String) (batch : List Client)

lemma get?_ofFile (mac : String) : (ofFile file batch).records.get? mac = latest? batch mac := by
  rw [ofFile, get?_replaceSource]
  simp [listedBy, empty, OrderedMap.get?_empty]

lemma nodup_snapshot_ofFile
    (h : ∀ r ∈ batch, HardwareAddress.normalize? r.mac = some r.mac) :
    ((ofFile file batch).snapshot.map
      fun r => HardwareAddress.parse? r.mac).Nodup := by
  have hentry : ∀ e ∈ (ofFile file batch).records.entries,
      e.2 ∈ batch ∧ e.2.mac = e.1 := by
    intro e he
    have hget := OrderedMap.get?_eq_some_iff.2 he
    rw [get?_ofFile] at hget
    exact mem_of_latest? hget
  have hperm := (List.mergeSort_perm (ofFile file batch).records.values
    fun a b => a.mac ≤ b.mac).map fun r => HardwareAddress.parse? r.mac
  refine hperm.nodup_iff.2 ?_
  rw [OrderedMap.values, List.map_map]
  refine List.Nodup.map_on (fun e he d hd hparse => ?_)
    (List.Nodup.of_map _ (ofFile file batch).records.nodup)
  have hmac : e.2.mac = d.2.mac :=
    HardwareAddress.eq_of_parse?_eq (h _ (hentry e he).1) (h _ (hentry d hd).1) hparse
  have hkey : e.1 = d.1 := by rw [← (hentry e he).2, ← (hentry d hd).2, hmac]
  exact List.inj_on_of_nodup_map (ofFile file batch).records.nodup he hd hkey

end Client.Table

namespace Lease

open RouterAgent.Text

/-- **A client is found under every spelling of its address.** A table is loaded with what a text
lists. For a question that is no address nothing is found, and for any other the last record of the
text whose field denotes the same octets. The addresses of the records are in normal form, and no
two records of the table are of one address. -/
theorem lookup_finds_last_listing {f : Format} {source : String} {text : List Char}
    {batch : List Client} (h : f.parse source text = .ok batch) (file : String) :
    (∃ ls, f.Lists text ls) ∧
    (∀ ls, f.Lists text ls → ∀ question : String,
      (¬ HardwareAddress.Grouped (trim question.toList) →
        (Client.Table.ofFile file batch).get? question = none) ∧
      (HardwareAddress.Grouped (trim question.toList) →
        ∃ a : HardwareAddress, a.Spells (trim question.toList) ∧
          (Client.Table.ofFile file batch).get? question =
            (ls.reverse.find? (a.Spells ·.spelling)).map (·.client source a))) ∧
    (∀ r ∈ batch, HardwareAddress.normalize? r.mac = some r.mac) ∧
    ((Client.Table.ofFile file batch).snapshot.map
      fun r => HardwareAddress.parse? r.mac).Nodup := by
  have hnormal := Format.normalize?_of_parse h
  refine ⟨Format.exists_lists h, fun ls hls question => ⟨fun hno => ?_, fun hgrouped => ?_⟩, hnormal,
    Client.Table.nodup_snapshot_ofFile file batch hnormal⟩
  · rw [← HardwareAddress.exists_spells_iff, not_exists] at hno
    rw [Client.Table.get?, HardwareAddress.normalize?_eq_none_iff.2 hno, Option.bind_none]
  · obtain ⟨a, ha⟩ := HardwareAddress.exists_spells_iff.2 hgrouped
    refine ⟨a, ha, ?_⟩
    rw [Client.Table.get?, HardwareAddress.normalize?_of_spells ha, Option.bind_some,
      Client.Table.get?_ofFile, hls.batch_eq h, Client.latest?_lastOfEach,
      Listing.latest?_filterMap_client?]

def twoSpellings : List Char :=
  "5 AA-00-00-00-00-01 10.0.0.1 tv *\n6 aa:00:00:00:00:01 10.0.0.2 * *\n".toList

theorem lookup_finds_last_listing_twoSpellings :
    Format.dnsmasq.parse "" twoSpellings =
      .ok [⟨"aa:00:00:00:00:01", "10.0.0.2", "", some 6, ""⟩] ∧
    (Client.Table.ofFile "" [⟨"aa:00:00:00:00:01", "10.0.0.2", "", some 6, ""⟩]).get?
      " aA-00-00-00-00-01\n" =
      some ⟨"aa:00:00:00:00:01", "10.0.0.2", "", some 6, ""⟩ := by
  have hparse : Format.dnsmasq.parse "" twoSpellings =
      .ok [⟨"aa:00:00:00:00:01", "10.0.0.2", "", some 6, ""⟩] := by decide +kernel
  refine ⟨hparse, ?_⟩
  obtain ⟨-, hlookup, -⟩ := lookup_finds_last_listing hparse ""
  have hspells : (⟨[170, 0, 0, 0, 0, 1], rfl⟩ : HardwareAddress).Spells
      (trim " aA-00-00-00-00-01\n".toList) := by decide +kernel
  obtain ⟨a, ha, hget⟩ := (hlookup _ (.dnsmasq twoSpellings) " aA-00-00-00-00-01\n").2
    (HardwareAddress.exists_spells_iff.1 ⟨_, hspells⟩)
  obtain rfl : a = ⟨[170, 0, 0, 0, 0, 1], rfl⟩ := ha.unique hspells
  rw [hget]
  decide +kernel

end Lease

end RouterAgent
