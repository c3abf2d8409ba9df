import RouterAgent.Lease.File
import RouterAgent.Proofs.HardwareAddress.Spelling
import RouterAgent.Proofs.Lease.Layout

/-!
What a lease file lists, with the hardware addresses as they are written there.

A text of either form that is accepted lists one record for each address that its fields spell, the
last one of several.
-/

namespace RouterAgent

namespace Lease

open RouterAgent.Text

/-! ### Listings -/

/-- What a file lists in one place: the field for the hardware address as it is written, and the
rest of the record. -/
structure Listing where
  spelling : List Char
  ip : String
  hostname : String
  expires : Option Int
deriving DecidableEq

namespace Listing

variable {l : Listing} {source : String} {a : HardwareAddress}

def client (l : Listing) (source : String) (a : HardwareAddress) : Client :=
  ⟨String.ofList a.text, l.ip, l.hostname, l.expires, source⟩

def client? (l : Listing) (source : String) : Option Client :=
  (HardwareAddress.read? l.spelling).map (l.client source)

lemma client?_of_spells (h : a.Spells l.spelling) : l.client? source = some (l.client source a) := by
  rw [client?, HardwareAddress.read?_eq_some_iff.2 h, Option.map_some]

lemma exists_of_client? {r : Client} (h : l.client? source = some r) :
    ∃ a : HardwareAddress, a.Spells l.spelling ∧ r = l.client source a := by
  obtain ⟨a, ha, rfl⟩ := Option.map_eq_some_iff.1 h
  exact ⟨a, HardwareAddress.read?_eq_some_iff.1 ha, rfl⟩

lemma any_client?_iff : (l.client? source).any (·.mac = String.ofList a.text) ↔
    a.Spells l.spelling := by
  rw [Option.any_eq_true]
  constructor
  · rintro ⟨r, hr, hmac⟩
    obtain ⟨b, hb, rfl⟩ := exists_of_client? hr
    have htext : b.text = a.text := String.ofList_injective (of_decide_eq_true hmac)
    rwa [← HardwareAddress.text_injective htext]
  · intro h
    exact ⟨_, client?_of_spells h, decide_eq_true rfl⟩

lemma latest?_filterMap_client? (ls : List Listing) (source : String) (a : HardwareAddress) :
    Client.latest? (ls.filterMap (client? · source)) (String.ofList a.text) =
      (ls.reverse.find? (a.Spells ·.spelling)).map (client · source a) := by
  have hany : (fun l : Listing => (l.client? source).any (·.mac = String.ofList a.text)) =
      fun l => decide (a.Spells l.spelling) := by
    funext l
    rw [Bool.eq_iff_iff, decide_eq_true_eq]
    exact any_client?_iff
  rw [Client.latest?, ← List.filterMap_reverse, List.find?_filterMap, hany]
  cases hfind : ls.reverse.find? (a.Spells ·.spelling) with
  | none => rfl
  | some l =>
    have hl : a.Spells l.spelling := by simpa using List.find?_some hfind
    rw [Option.bind_some, client?_of_spells hl, Option.map_some]

end Listing

/-! ### One lease a line -/

/-- What the words of a line list: there are four or more, and the first one is not `duid`. -/
def Dnsmasq.listing? : List (List Char) → Option Listing
  | first :: mac :: ip :: name :: _ =>
    if first = "duid".toList then none
    else some ⟨mac, String.ofList ip, hostname name, integer? first⟩
  | _ => none

lemma Dnsmasq.readAs_listing {source : String} {n : ℕ} {line : List Char} {c : Option Client}
    (h : client? source n (words line) = .ok c) :
    ReadAs source line ((listing? (words line)).bind (·.client? source)) := by
  intro m
  have hunblank : ∀ w ∈ words line, ∀ c ∈ w, isBlank c = false := fun w => unblank_of_mem_words
  generalize words line = ws at h hunblank
  rcases ws with _ | ⟨first, rest⟩
  · rfl
  · by_cases hduid : first = "duid".toList
    · rcases rest with _ | ⟨mac, _ | ⟨ip, _ | ⟨name, rest⟩⟩⟩
      all_goals simp only [client?, listing?, if_pos hduid, Option.bind_none]
    · rcases rest with _ | ⟨mac, _ | ⟨ip, _ | ⟨name, rest⟩⟩⟩
      · simp only [client?, if_neg hduid, reduceCtorEq] at h
      · simp only [client?, if_neg hduid, reduceCtorEq] at h
      · simp only [client?, if_neg hduid, reduceCtorEq] at h
      · have hmac := HardwareAddress.normalize?_of_unblank (hunblank mac (by simp))
        simp only [client?, if_neg hduid, hmac, listing?, Option.bind_some,
          Listing.client?] at h ⊢
        cases hread : HardwareAddress.read? mac with
        | none => rfl
        | some a =>
          cases hends : integer? first with
          | none => simp [hread, hends] at h
          | some ends => rfl

lemma Dnsmasq.parse_eq_of_ok {source : String} {text : List Char} {batch : List Client}
    (h : parse source text = .ok batch) : batch = Client.lastOfEach
      (((lines text).filterMap fun line => listing? (words line)).filterMap
        (Listing.client? · source)) := by
  have hread : ∀ line ∈ lines text,
      ReadAs source line ((listing? (words line)).bind (·.client? source)) := by
    intro line hline
    obtain ⟨n, c, hc⟩ := exists_of_parse h line hline
    exact readAs_listing hc
  have hlines : lines text = (lines text).map id := (List.map_id _).symm
  have hparse := parse_of_lines hlines hread
  rw [h, Except.ok.injEq] at hparse
  rw [hparse, List.filterMap_filterMap]

/-! ### Nested blocks -/

def Isc.Statements.listing? (s : Statements) (ip : String) : Option Listing :=
  match words s.hardware with
  | [_, mac] => some ⟨mac, ip, String.ofList (trimWhere (· = '"') s.hostname), ends? s.ends⟩
  | _ => none

lemma Isc.Statements.client?_eq_bind (s : Statements) (source ip : String) :
    s.client? source ip = (s.listing? ip).bind (·.client? source) := by
  have hunblank : ∀ w ∈ words s.hardware, ∀ c ∈ w, isBlank c = false := fun w =>
    unblank_of_mem_words
  unfold Statements.client? listing?
  generalize words s.hardware = ws at hunblank
  rcases ws with _ | ⟨word, _ | ⟨mac, _ | ⟨more, rest⟩⟩⟩
  · rfl
  · rfl
  · simp only [HardwareAddress.normalize?_of_unblank (hunblank mac (by simp)), Option.map_map]
    rfl
  · rfl

def Isc.Layout.listings (l : Layout) : List Listing :=
  l.blocks.filterMap fun b => b.statements.listing? b.ip

lemma Isc.Layout.listings_append (l m : Layout) :
    listings (l ++ m) = l.listings ++ m.listings := by
  simp [listings, blocks]

lemma Isc.clients_eq (l : Layout) (source : String) :
    l.clients source = l.listings.filterMap (Listing.client? · source) := by
  rw [Layout.clients, Layout.listings, List.filterMap_filterMap]
  exact List.filterMap_congr fun b _ => b.statements.client?_eq_bind source b.ip

/-! ### Files -/

inductive Format.Lists : Format → List Char → List Listing → Prop
  | dnsmasq (text : List Char) :
    Lists .dnsmasq text ((lines text).filterMap fun line => Dnsmasq.listing? (words line))
  | isc {text : List Char} {l : Isc.Layout} (h : lines text = l.lines) :
    Lists .isc text l.listings

variable {f : Format} {source : String} {text : List Char} {batch : List Client}

lemma Format.exists_lists (h : f.parse source text = .ok batch) : ∃ ls, f.Lists text ls := by
  cases f with
  | dnsmasq => exact ⟨_, .dnsmasq text⟩
  | isc =>
    obtain ⟨l, hl⟩ := Isc.exists_layout_iff.1 ⟨batch, h⟩
    exact ⟨_, .isc hl⟩

lemma Format.Lists.batch_eq {ls : List Listing} (hls : f.Lists text ls)
    (h : f.parse source text = .ok batch) :
    batch = Client.lastOfEach (ls.filterMap (Listing.client? · source)) := by
  cases hls with
  | dnsmasq => exact Dnsmasq.parse_eq_of_ok h
  | isc hl =>
    have hparse := Isc.parse_of_layout hl source
    rw [← Isc.clients_eq]
    exact Except.ok.inj (h.symm.trans hparse)

lemma Format.exists_listing (h : f.parse source text = .ok batch) {r : Client} (hr : r ∈ batch) :
    ∃ (l : Listing) (a : HardwareAddress), r = l.client source a := by
  obtain ⟨ls, hls⟩ := Format.exists_lists h
  rw [hls.batch_eq h] at hr
  obtain ⟨l, -, hl⟩ := List.mem_filterMap.1 (Client.mem_of_mem_lastOfEach hr)
  obtain ⟨a, -, rfl⟩ := Listing.exists_of_client? hl
  exact ⟨l, a, rfl⟩

lemma Format.normalize?_of_parse (h : f.parse source text = .ok batch) :
    ∀ r ∈ batch, HardwareAddress.normalize? r.mac = some r.mac := by
  intro r hr
  obtain ⟨l, a, rfl⟩ := Format.exists_listing h hr
  exact a.normalize?_text

/-- **Every client names its file.** -/
theorem Format.readLeases_tagged {h : Host} {path : String}
    (hr : f.readLeases h path = .ok batch) : ∀ r ∈ batch, r.source = path := by
  unfold readLeases at hr
  split at hr
  · simp at hr
  · next text _ =>
    cases hp : f.parse path text with
    | error problem => simp [hp, Except.mapError] at hr
    | ok clients =>
      simp only [hp, Except.mapError, Except.ok.injEq] at hr
      subst hr
      intro r hr
      obtain ⟨l, a, rfl⟩ := Format.exists_listing hp hr
      rfl

end Lease

end RouterAgent
