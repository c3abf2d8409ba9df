import RouterAgent.Proofs.Lease.LineByLine
import RouterAgent.Proofs.Text.Words

/-!
Lease files of one lease a line that are cut while they are written.

Of the line that a cut falls into some words are left, and of the last one perhaps only a
beginning. With three words or fewer the line is an error, and from the fifth word on nothing is
taken. So only a cut inside the fourth word, the name, is not noticed.
-/

namespace RouterAgent.Lease.Dnsmasq

open RouterAgent.Text

/-! ### Whole lines -/

/-- A line of a lease file with its five words, of which the first is a whole number and the second
a hardware address. -/
structure Entry where
  line : List Char
  expiry : List Char
  mac : List Char
  ip : List Char
  name : List Char
  id : List Char
  ends : Int
  address : String
  words_line : words line = [expiry, mac, ip, name, id]
  unbroken : ∀ c ∈ line, isLineBreak c = false
  integer?_expiry : integer? expiry = some ends
  normalize?_mac : HardwareAddress.normalize? (String.ofList mac) = some address

namespace Entry

def ofWords (expiry mac ip name id : List Char) (ends : Int) (address : String)
    (h : ∀ w ∈ [expiry, mac, ip, name, id], IsWord w) (hexpiry : integer? expiry = some ends)
    (hmac : HardwareAddress.normalize? (String.ofList mac) = some address) : Entry where
  line := [' '].intercalate [expiry, mac, ip, name, id]
  expiry
  mac
  ip
  name
  id
  ends
  address
  words_line := words_intercalate h
  unbroken := isLineBreak_of_mem_intercalate h
  integer?_expiry := hexpiry
  normalize?_mac := hmac

def client (e : Entry) (source : String) : Client :=
  ⟨e.address, String.ofList e.ip, hostname e.name, some e.ends, source⟩

def text (es : List Entry) : List Char := ofLines (es.map line)

lemma expiry_ne_duid (e : Entry) : e.expiry ≠ "duid".toList := by
  intro h
  have hnone : integer? "duid".toList = none := by decide +kernel
  have hsome := e.integer?_expiry
  rw [h, hnone] at hsome
  simp at hsome

lemma client?_words (e : Entry) (source : String) (n : Nat) (v : List Char)
    (rest : List (List Char)) :
    client? source n (e.expiry :: e.mac :: e.ip :: v :: rest) =
      .ok (some { e.client source with hostname := hostname v }) := by
  simp only [client?, if_neg e.expiry_ne_duid, e.normalize?_mac, e.integer?_expiry]
  rfl

lemma readAs_line (e : Entry) (source : String) : ReadAs source e.line (some (e.client source)) := by
  intro n
  rw [e.words_line, e.client?_words]
  rfl

lemma unbroken_of_mem {es : List Entry} : ∀ l ∈ es.map line, ∀ c ∈ l, isLineBreak c = false := by
  intro l hl
  obtain ⟨e, -, rfl⟩ := List.mem_map.1 hl
  exact e.unbroken

lemma parse_text_append (source : String) (es : List Entry) {last : List Char}
    (hlast : ∀ c ∈ last, isLineBreak c = false) :
    parse source (text es ++ last) =
      (client? source (es.length + 1) (words last)).map fun c? =>
        (Client.Table.byAddress (es.map (client · source) ++ c?.toList)).values := by
  have hlines : lines (text es ++ last) = es.map line ++ if last = [] then [] else [last] :=
    lines_ofLines_append unbroken_of_mem hlast
  have hread : ∀ e ∈ es, ReadAs source e.line (some (e.client source)) := fun e _ =>
    e.readAs_line source
  simp only [parse_of_readAs hlines hread, Client.values_byAddress]
  by_cases hne : last = []
  · have hnone : client? source (es.length + 1) (words last) = .ok none := by rw [hne]; rfl
    rw [if_pos hne, hnone]
    simp [Except.map, pure, Except.pure]
  · rw [if_neg hne]
    cases hc : client? source (es.length + 1) (words last) with
    | error problem => simp [hc, Except.map, bind, Except.bind]
    | ok c? => cases c? <;> simp [hc, Except.map, bind, Except.bind, pure, Except.pure]

lemma parse_text (source : String) (es : List Entry) :
    parse source (text es) =
      .ok (Client.Table.byAddress (es.map (client · source))).values := by
  have hnothing : ∀ c ∈ ([] : List Char), isLineBreak c = false := by simp
  have h := parse_text_append source es hnothing
  have hnone : client? source (es.length + 1) (words []) = .ok none := rfl
  rw [List.append_nil, hnone] at h
  simpa [Except.map] using h

/-! ### A line that is cut -/

lemma words_cut {e : Entry} {q : List Char} (h : q <+: e.line) :
    (words q).length < 4 ∨
      (∃ rest, words q = e.expiry :: e.mac :: e.ip :: e.name :: rest) ∨
      ∃ v, v <+: e.name ∧ v ≠ e.name ∧ words q = [e.expiry, e.mac, e.ip, v] := by
  obtain ⟨n, hn⟩ := words_of_prefix h
  rw [e.words_line] at hn
  rcases hn with hq | ⟨v, w, -, hv, hw, hq⟩
  · -- the cut comes between two words
    rcases Nat.lt_or_ge n 4 with hlt | hge
    · left
      rw [hq, List.length_take]
      omega
    · obtain ⟨k, rfl⟩ := Nat.exists_eq_add_of_le' hge
      exact .inr (.inl ⟨[e.id].take k, hq⟩)
  · rcases Nat.lt_or_ge n 3 with hlt | hge
    · left
      rw [hq, List.length_append, List.length_take, List.length_singleton]
      omega
    · obtain ⟨k, rfl⟩ := Nat.exists_eq_add_of_le' hge
      rcases k with _ | k
      · -- the cut comes inside the name or right behind it
        obtain rfl : e.name = w := by simpa using hw
        by_cases hname : v = e.name
        · exact .inr (.inl ⟨[], by rw [hq, hname]; rfl⟩)
        · exact .inr (.inr ⟨v, hv, hname, hq⟩)
      · exact .inr (.inl ⟨[e.id].take k ++ [v], hq⟩)

end Entry

lemma client?_of_length_lt {ws : List (List Char)} (h : ws.length < 4) (source : String) (n : Nat) :
    client? source n ws = .ok none ∨ ∃ problem, client? source n ws = .error problem := by
  unfold client?
  split
  · exact .inl rfl
  · next first rest =>
    split
    · exact .inl rfl
    · split
      · simp only [List.length_cons] at h
        omega
      · exact .inr ⟨_, rfl⟩

/-- A text of lines is cut inside the name of the line after the first `k` ones: of the line are
left its first three words and a beginning `v` of its name. -/
structure CutsName (es : List Entry) (p : List Char) (k : Nat) (e : Entry) (v : List Char) :
    Prop where
  entry : es[k]? = some e
  beginning : v <+: e.name
  shorter : v ≠ e.name
  left : ∃ q, p = Entry.text (es.take k) ++ q ∧ q <+: e.line ∧
    words q = [e.expiry, e.mac, e.ip, v]

lemma Entry.unbroken_of_prefix {e : Entry} {q : List Char} (h : q <+: e.line) :
    ∀ c ∈ q, isLineBreak c = false := fun c hc => e.unbroken c (h.subset hc)

lemma CutsName.parse_eq {es : List Entry} {p : List Char} {k : Nat} {e : Entry} {v : List Char}
    (h : CutsName es p k e v) (source : String) :
    parse source p = .ok (Client.Table.byAddress ((es.take k).map (Entry.client · source) ++
      [{ e.client source with hostname := hostname v }])).values := by
  obtain ⟨q, rfl, hq, hwords⟩ := h.left
  rw [Entry.parse_text_append source _ (Entry.unbroken_of_prefix hq), hwords, e.client?_words]
  rfl

lemma parse_of_prefix {es : List Entry} {p : List Char} (hp : p <+: Entry.text es)
    (hcut : ∀ k e v, ¬ CutsName es p k e v) (source : String) :
    (∃ problem, parse source p = .error problem) ∨
      ∃ k ≤ es.length, parse source p = parse source (Entry.text (es.take k)) := by
  obtain ⟨k, hk, q, hsplit, hq⟩ := exists_of_prefix_ofLines hp
  rw [List.length_map] at hk
  rw [← List.map_take] at hsplit
  change p = Entry.text (es.take k) ++ q at hsplit
  rcases hq with rfl | ⟨line, hline, hq⟩
  · right
    exact ⟨k, hk, by rw [hsplit, List.append_nil]⟩
  · rw [List.getElem?_map, Option.map_eq_some_iff] at hline
    obtain ⟨e, he, rfl⟩ := hline
    have hparse := Entry.parse_text_append source (es.take k) (Entry.unbroken_of_prefix hq)
    rw [← hsplit] at hparse
    rcases Entry.words_cut hq with hfew | ⟨rest, hwords⟩ | ⟨v, hv, hname, hwords⟩
    · rcases client?_of_length_lt hfew source ((es.take k).length + 1) with
        hnone | ⟨problem, herror⟩
      · right
        refine ⟨k, hk, ?_⟩
        rw [hparse, hnone, Entry.parse_text]
        simp [Except.map]
      · left
        exact ⟨problem, by rw [hparse, herror]; rfl⟩
    · right
      have hlt : k < es.length := (List.getElem?_eq_some_iff.1 he).1
      have htake : es.take (k + 1) = es.take k ++ [e] := by
        rw [List.take_add_one, he]
        rfl
      refine ⟨k + 1, hlt, ?_⟩
      rw [hparse, hwords, e.client?_words, Entry.parse_text, htake, List.map_append]
      rfl
    · exact absurd ⟨he, hv, hname, q, hsplit, hq, hwords⟩ (hcut k e v)

/-- **A text that is cut is an error or lists whole lines**, unless it is cut inside a name. Then
it is an error or lists the clients of the first lines, and each client that it lists is one of
some line. If it is cut inside a name, it lists the clients of the lines before and one more, with
the name shortened. -/
theorem torn_text_lists_lines {es : List Entry} {p : List Char} (source : String)
    (torn : p <+: Entry.text es) :
    ((∀ k e v, ¬ CutsName es p k e v) →
      ((∃ problem, parse source p = .error problem) ∨
        ∃ k ≤ es.length, parse source p = parse source (Entry.text (es.take k))) ∧
      ∀ batch, parse source p = .ok batch → ∀ r ∈ batch, ∃ e ∈ es, r = e.client source) ∧
    ∀ k e v, CutsName es p k e v →
      parse source p = .ok (Client.Table.byAddress ((es.take k).map (Entry.client · source) ++
        [{ e.client source with hostname := hostname v }])).values := by
  refine ⟨fun hcut => ?_, fun k e v hcut => hcut.parse_eq source⟩
  have hwhole := parse_of_prefix torn hcut source
  refine ⟨hwhole, fun batch hbatch r hr => ?_⟩
  rcases hwhole with ⟨problem, herror⟩ | ⟨k, -, hsame⟩
  · rw [herror] at hbatch
    simp at hbatch
  · rw [hsame, Entry.parse_text, Except.ok.injEq] at hbatch
    rw [← hbatch] at hr
    obtain ⟨e, he, rfl⟩ := List.mem_map.1 (Client.mem_of_mem_values_byAddress hr)
    exact ⟨e, List.take_subset k es he, rfl⟩

lemma isWord_laptop : ∀ w ∈ ["1".toList, "aa:00:00:00:00:01".toList, "10.0.0.1".toList,
    "laptop".toList, "*".toList], IsWord w := by
  simp [IsWord, isBlank]

def laptop : Entry :=
  .ofWords "1".toList "aa:00:00:00:00:01".toList "10.0.0.1".toList "laptop".toList "*".toList 1
    "aa:00:00:00:00:01" isWord_laptop (by decide +kernel) (by decide +kernel)

def cutInName : List Char := "1 aa:00:00:00:00:01 10.0.0.1 lap".toList

def cutInAddress : List Char := "1 aa:00:00:00:00:01 10.0".toList

theorem torn_text_lists_lines_laptop :
    ((∃ problem, parse "" cutInAddress = .error problem) ∨
      ∃ k ≤ [laptop].length, parse "" cutInAddress = parse "" (Entry.text ([laptop].take k))) ∧
    parse "" cutInName = .ok [⟨"aa:00:00:00:00:01", "10.0.0.1", "lap", some 1, ""⟩] := by
  have haddress : cutInAddress <+: Entry.text [laptop] := by decide +kernel
  have hname : cutInName <+: Entry.text [laptop] := by decide +kernel
  constructor
  · refine ((torn_text_lists_lines "" haddress).1 fun k e v hcut => ?_).1
    obtain ⟨q, hsplit, -, hwords⟩ := hcut.left
    -- only three words are left, be it of the first line or of none
    have hthree : (words cutInAddress).length = 3 := by decide +kernel
    obtain ⟨hk, -⟩ := List.getElem?_eq_some_iff.1 hcut.entry
    obtain rfl : k = 0 := by simpa using hk
    have hq : cutInAddress = q := hsplit
    rw [hq, hwords] at hthree
    simp at hthree
  · have hcut : CutsName [laptop] cutInName 0 laptop "lap".toList :=
      ⟨rfl, by decide +kernel, by decide +kernel, cutInName, rfl, by decide +kernel,
        by decide +kernel⟩
    rw [(torn_text_lists_lines "" hname).2 0 laptop _ hcut]
    decide +kernel

/-- The text of `laptop` cut inside the name lists a client that no line lists. -/
theorem torn_text_may_list_cut_name :
    ¬ ∀ (source : String) (es : List Entry) (p : List Char), p <+: Entry.text es →
      ((∃ problem, parse source p = .error problem) ∨
        ∃ k ≤ es.length, parse source p = parse source (Entry.text (es.take k))) ∧
      ∀ batch, parse source p = .ok batch → ∀ r ∈ batch, ∃ e ∈ es, r = e.client source := by
  intro h
  obtain ⟨-, hlisted⟩ := h "" [laptop] cutInName (by decide +kernel)
  have hbatch : parse "" cutInName =
      .ok [⟨"aa:00:00:00:00:01", "10.0.0.1", "lap", some 1, ""⟩] := by decide +kernel
  obtain ⟨e, he, hr⟩ := hlisted _ hbatch _ (List.mem_singleton.2 rfl)
  obtain rfl : e = laptop := List.mem_singleton.1 he
  exact absurd hr (by decide +kernel)

end RouterAgent.Lease.Dnsmasq
