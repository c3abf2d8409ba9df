import RouterAgent.HardwareAddress
import RouterAgent.Proofs.Text.Trim

/-!
How a hardware address may be spelled.

Reading accepts exactly the spellings of an address: in lower case they are its six octets in
hexadecimal digits, joined by one of the two separators. So every text writes one address at most,
and the normal form is a spelling that is its own normal form.
-/

namespace RouterAgent

open RouterAgent.Text

/-! ### Digits -/

lemma toNat_toLower (c : Char) :
    c.toLower.toNat = if 65 ≤ c.toNat ∧ c.toNat ≤ 90 then c.toNat + 32 else c.toNat := by
  have hrange : c.val ≥ 'A'.val ∧ c.val ≤ 'Z'.val ↔ 65 ≤ c.toNat ∧ c.toNat ≤ 90 := by
    simp only [ge_iff_le, UInt32.le_iff_toNat_le]
    rfl
  unfold Char.toLower
  split
  · next h =>
    have hc := hrange.1 h
    have hsum : (c.val + ('a'.val - 'A'.val)).toNat = (c.toNat + 32) % 2 ^ 32 := UInt32.toNat_add ..
    rw [if_pos hc, Char.toNat_mk, hsum]
    omega
  · next h => rw [if_neg fun hc => h (hrange.2 hc)]

lemma toNat_hexDigit {n : Nat} (h : n < 16) :
    (hexDigit n).toNat = if n < 10 then 48 + n else 87 + n := by
  have hall : ∀ m : Fin 16, (hexDigit m).toNat = if m.val < 10 then 48 + m.val else 87 + m.val := by
    decide
  exact hall ⟨n, h⟩

namespace HardwareAddress

lemma hexValue?_eq_some_iff {c : Char} {n : Nat} :
    hexValue? c = some n ↔ n < 16 ∧ c.toLower = hexDigit n := by
  have hle (a b : Char) : a ≤ b ↔ a.toNat ≤ b.toNat := UInt32.le_iff_toNat_le
  have hlower (h : n < 16) : c.toLower = hexDigit n ↔
      (if 65 ≤ c.toNat ∧ c.toNat ≤ 90 then c.toNat + 32 else c.toNat) =
        if n < 10 then 48 + n else 87 + n := by
    rw [← Char.toNat_inj, toNat_toLower, toNat_hexDigit h]
  have hvalue : hexValue? c =
      if 48 ≤ c.toNat ∧ c.toNat ≤ 57 then some (c.toNat - 48)
      else if 97 ≤ c.toNat ∧ c.toNat ≤ 102 then some (c.toNat - 87)
      else if 65 ≤ c.toNat ∧ c.toNat ≤ 70 then some (c.toNat - 55)
      else none := by
    simp only [hexValue?, hle]
    rfl
  rw [hvalue]
  constructor
  · intro h
    have hn : n < 16 := by
      split_ifs at h <;> simp only [Option.some.injEq] at h <;> omega
    refine ⟨hn, (hlower hn).2 ?_⟩
    split_ifs at h ⊢ <;> simp only [Option.some.injEq] at h <;> omega
  · rintro ⟨hn, h⟩
    rw [hlower hn] at h
    split_ifs at h ⊢
    all_goals try rw [Option.some.injEq]
    all_goals omega

lemma octetText_eq (b : UInt8) :
    octetText b = [hexDigit (b.toNat / 16), hexDigit (b.toNat % 16)] := by
  have hb : b.toNat < 256 := b.toNat_lt
  have hhigh : b.toNat / 16 % 16 = b.toNat / 16 := by omega
  simp [octetText, hexDigits, hhigh]

lemma octet?_eq_some_iff {cs : List Char} {b : UInt8} :
    octet? cs = some b ↔ cs.map Char.toLower = octetText b := by
  have hb : b.toNat < 256 := b.toNat_lt
  rw [octetText_eq]
  constructor
  · intro h
    obtain ⟨c, d, rfl⟩ : ∃ c d, cs = [c, d] := by
      unfold octet? at h
      split at h
      · next c d => exact ⟨c, d, rfl⟩
      · simp at h
    simp only [octet?, Option.bind_eq_bind, Option.bind_eq_some_iff, Option.pure_def,
      Option.some.injEq] at h
    obtain ⟨x, hx, y, hy, rfl⟩ := h
    obtain ⟨hx16, hx⟩ := hexValue?_eq_some_iff.1 hx
    obtain ⟨hy16, hy⟩ := hexValue?_eq_some_iff.1 hy
    have hsum : (UInt8.ofNat (16 * x + y)).toNat = 16 * x + y := by
      rw [UInt8.toNat_ofNat']
      omega
    have hhigh : (16 * x + y) / 16 = x := by omega
    have hlow : (16 * x + y) % 16 = y := by omega
    simp only [List.map_cons, List.map_nil, hsum, hhigh, hlow, hx, hy]
  · intro h
    obtain ⟨c, d, rfl⟩ : ∃ c d, cs = [c, d] := by
      rcases cs with _ | ⟨c, _ | ⟨d, _ | ⟨e, cs⟩⟩⟩
      all_goals simp_all
    simp only [List.map_cons, List.map_nil, List.cons.injEq, and_true] at h
    have hc : hexValue? c = some (b.toNat / 16) :=
      hexValue?_eq_some_iff.2 ⟨by omega, h.1⟩
    have hd : hexValue? d = some (b.toNat % 16) :=
      hexValue?_eq_some_iff.2 ⟨by omega, h.2⟩
    have hsum : 16 * (b.toNat / 16) + b.toNat % 16 = b.toNat := by omega
    have hoctet : octet? [c, d] =
        some (UInt8.ofNat (16 * (b.toNat / 16) + b.toNat % 16)) := by
      simp only [octet?, hc, hd]
      rfl
    rw [hoctet, hsum, UInt8.ofNat_toNat]

lemma mapM_octet?_eq_some_iff {groups : List (List Char)} {bs : List UInt8} :
    groups.mapM octet? = some bs ↔ groups.map (·.map Char.toLower) = bs.map octetText := by
  induction groups generalizing bs with
  | nil => cases bs <;> simp
  | cons group groups ih =>
    rcases bs with _ | ⟨b, bs⟩
    · simp [Option.bind_eq_some_iff]
    · simp [Option.bind_eq_some_iff, octet?_eq_some_iff, ih]

/-! ### Spellings -/

def groups (a : HardwareAddress) : List (List Char) := a.octets.map octetText

/-- A text spells an address: in lower case it is the digits of the octets, joined by colons or by
hyphens. -/
def Spells (a : HardwareAddress) (cs : List Char) : Prop :=
  ∃ sep ∈ [':', '-'], cs.map Char.toLower = [sep].intercalate a.groups

instance (a : HardwareAddress) (cs : List Char) : Decidable (a.Spells cs) :=
  decidable_of_iff (cs.map Char.toLower = [':'].intercalate a.groups ∨
    cs.map Char.toLower = ['-'].intercalate a.groups) (by simp [Spells])

lemma mem_hexDigits {a : HardwareAddress} {group : List Char} (h : group ∈ a.groups) {c : Char}
    (hc : c ∈ group) : ∃ n < 16, c = hexDigit n := by
  obtain ⟨b, -, rfl⟩ := List.mem_map.1 h
  have hb : b.toNat < 256 := b.toNat_lt
  rw [octetText_eq] at hc
  simp only [List.mem_cons, List.not_mem_nil, or_false] at hc
  rcases hc with rfl | rfl
  · exact ⟨_, by omega, rfl⟩
  · exact ⟨_, by omega, rfl⟩

lemma hexDigit_range {n : Nat} (h : n < 16) :
    (48 ≤ (hexDigit n).toNat ∧ (hexDigit n).toNat ≤ 57) ∨
      (97 ≤ (hexDigit n).toNat ∧ (hexDigit n).toNat ≤ 102) := by
  rw [toNat_hexDigit h]
  split <;> omega

lemma sep_not_mem_group {sep : Char} (hsep : sep ∈ [':', '-']) {a : HardwareAddress} :
    ∀ group ∈ a.groups, sep ∉ group := by
  intro group hgroup hmem
  obtain ⟨n, hn, rfl⟩ := mem_hexDigits hgroup hmem
  have hrange := hexDigit_range hn
  simp only [List.mem_cons, List.not_mem_nil, or_false] at hsep
  rcases hsep with h | h <;> rw [h] at hrange <;> exact absurd hrange (by decide)

lemma toLower_eq_sep_iff {sep c : Char} (hsep : sep ∈ [':', '-']) : c.toLower = sep ↔ c = sep := by
  have hiff (m : Nat) (hm : ¬ (65 ≤ m ∧ m ≤ 90) ∧ ¬ (97 ≤ m ∧ m ≤ 122)) :
      c.toLower.toNat = m ↔ c.toNat = m := by
    rw [toNat_toLower]
    split <;> omega
  rw [← Char.toNat_inj, ← Char.toNat_inj (c := c)]
  simp only [List.mem_cons, List.not_mem_nil, or_false] at hsep
  rcases hsep with rfl | rfl
  · exact hiff 58 (by decide)
  · exact hiff 45 (by decide)

lemma groups_ne_nil (a : HardwareAddress) : a.groups ≠ [] := by
  intro h
  have hlength := congrArg List.length h
  simp [groups, a.length_octets] at hlength

lemma map_toLower_intercalate {sep : Char} (hsep : sep ∈ [':', '-']) (pieces : List (List Char)) :
    ([sep].intercalate pieces).map Char.toLower =
      [sep].intercalate (pieces.map (·.map Char.toLower)) := by
  have hlower : sep.toLower = sep := (toLower_eq_sep_iff hsep).2 rfl
  induction pieces with
  | nil => rfl
  | cons piece pieces ih =>
    rcases pieces with _ | ⟨next, pieces⟩
    · simp
    · simp only [List.map_cons, List.intercalate_cons_cons, List.map_append, List.map_nil] at ih ⊢
      rw [ih, hlower]

lemma mapM_splitOn_eq_some_iff {sep : Char} (hsep : sep ∈ [':', '-']) {cs : List Char}
    {a : HardwareAddress} : (cs.splitOn sep).mapM octet? = some a.octets ↔
      cs.map Char.toLower = [sep].intercalate a.groups := by
  have hcs : cs.map Char.toLower =
      [sep].intercalate ((cs.splitOn sep).map (·.map Char.toLower)) := by
    rw [← map_toLower_intercalate hsep, List.intercalate_splitOn]
  have hsplit : ∀ piece ∈ (cs.splitOn sep).map (·.map Char.toLower), sep ∉ piece := by
    intro piece hpiece hmem
    obtain ⟨raw, hraw, rfl⟩ := List.mem_map.1 hpiece
    obtain ⟨c, hc, hlower⟩ := List.mem_map.1 hmem
    rw [toLower_eq_sep_iff hsep] at hlower
    rw [List.splitOn_eq_splitOnP] at hraw
    have hfalse := not_of_mem_splitOnP hraw c hc
    simp [hlower] at hfalse
  rw [mapM_octet?_eq_some_iff, hcs]
  constructor
  · intro h
    rw [h]
    rfl
  · intro h
    have hleft := List.splitOn_intercalate sep hsplit (by simp)
    have hright := List.splitOn_intercalate sep (sep_not_mem_group hsep) a.groups_ne_nil
    rw [← hleft, h, hright]
    rfl

lemma getElem?_two_of_lower {sep : Char} (hsep : sep ∈ [':', '-']) {cs : List Char}
    {a : HardwareAddress} (h : cs.map Char.toLower = [sep].intercalate a.groups) :
    cs[2]? = some sep := by
  obtain ⟨b, c, rest, hoctets⟩ : ∃ b c rest, a.octets = b :: c :: rest := by
    have hlength := a.length_octets
    rcases ha : a.octets with _ | ⟨b, _ | ⟨c, rest⟩⟩
    · simp [ha] at hlength
    · simp [ha] at hlength
    · exact ⟨b, c, rest, rfl⟩
  have hthird : (cs.map Char.toLower)[2]? = some sep := by
    rw [h, groups, hoctets, List.map_cons, List.map_cons, List.intercalate_cons_cons, octetText_eq]
    rfl
  rw [List.getElem?_map, Option.map_eq_some_iff] at hthird
  obtain ⟨d, hd, hlower⟩ := hthird
  rw [hd, (toLower_eq_sep_iff hsep).1 hlower]

/-- **Reading accepts exactly the spellings.** -/
lemma read?_eq_some_iff {cs : List Char} {a : HardwareAddress} : read? cs = some a ↔ a.Spells cs := by
  constructor
  · intro h
    simp only [read?, Option.bind_eq_bind, Option.bind_eq_some_iff] at h
    obtain ⟨sep, -, h⟩ := h
    split at h
    · next hsep =>
      obtain ⟨octets, hoctets, h⟩ := Option.bind_eq_some_iff.1 h
      split at h
      · next hlength =>
        obtain rfl : ⟨octets, hlength⟩ = a := by simpa using h
        have hmem : sep ∈ [':', '-'] := by simpa using hsep
        exact ⟨sep, hmem, (mapM_splitOn_eq_some_iff hmem).1 hoctets⟩
      · simp at h
    · simp at h
  · rintro ⟨sep, hmem, hlower⟩
    have hsep : sep = ':' ∨ sep = '-' := by simpa using hmem
    have hoctets := (mapM_splitOn_eq_some_iff hmem).2 hlower
    simp [read?, getElem?_two_of_lower hmem hlower, hsep, hoctets, a.length_octets]

lemma Spells.unique {a b : HardwareAddress} {cs : List Char} (ha : a.Spells cs)
    (hb : b.Spells cs) : a = b := by
  rw [← read?_eq_some_iff] at ha hb
  rw [ha] at hb
  exact Option.some.inj hb

/-- Six groups of two hexadecimal digits in either case, joined by colons or by hyphens. -/
def Grouped (cs : List Char) : Prop :=
  ∃ sep ∈ [':', '-'], ∃ pieces : List (List Char), pieces.length = 6 ∧
    (∀ piece ∈ pieces, piece.length = 2 ∧ ∀ c ∈ piece, c.toLower ∈ "0123456789abcdef".toList) ∧
    cs = [sep].intercalate pieces

lemma mem_hexDigits_iff {c : Char} :
    c ∈ "0123456789abcdef".toList ↔ ∃ n < 16, c = hexDigit n := by
  have hdigits : "0123456789abcdef".toList = (List.range 16).map hexDigit := by decide
  simp [hdigits, eq_comm]

lemma exists_octetText {piece : List Char} (hlength : piece.length = 2)
    (h : ∀ c ∈ piece, c.toLower ∈ "0123456789abcdef".toList) :
    ∃ b, piece.map Char.toLower = octetText b := by
  obtain ⟨c, d, rfl⟩ := List.length_eq_two.1 hlength
  obtain ⟨x, hx, hc⟩ := mem_hexDigits_iff.1 (h c (by simp))
  obtain ⟨y, hy, hd⟩ := mem_hexDigits_iff.1 (h d (by simp))
  refine ⟨UInt8.ofNat (16 * x + y), octet?_eq_some_iff.1 ?_⟩
  simp [octet?, hexValue?_eq_some_iff.2 ⟨hx, hc⟩, hexValue?_eq_some_iff.2 ⟨hy, hd⟩]

/-- **What spells an address** are six groups of two digits. -/
lemma exists_spells_iff {cs : List Char} : (∃ a : HardwareAddress, a.Spells cs) ↔ Grouped cs := by
  constructor
  · rintro ⟨a, sep, hsep, hlower⟩
    have hpieces : (cs.splitOn sep).map (·.map Char.toLower) = a.groups :=
      mapM_octet?_eq_some_iff.1 ((mapM_splitOn_eq_some_iff hsep).2 hlower)
    refine ⟨sep, hsep, cs.splitOn sep, ?_, fun piece hpiece => ?_, ?_⟩
    · have hlength := congrArg List.length hpieces
      rwa [List.length_map, groups, List.length_map, a.length_octets] at hlength
    · have hgroup : piece.map Char.toLower ∈ a.groups :=
        hpieces ▸ List.mem_map_of_mem (f := (·.map Char.toLower)) hpiece
      refine ⟨?_, fun c hc => ?_⟩
      · obtain ⟨b, -, hb⟩ := List.mem_map.1 hgroup
        have hlength := congrArg List.length hb
        rw [octetText, length_hexDigits, List.length_map] at hlength
        exact hlength.symm
      · exact mem_hexDigits_iff.2 (mem_hexDigits hgroup (List.mem_map_of_mem hc))
    · rw [List.intercalate_splitOn]
  · rintro ⟨sep, hsep, pieces, hlength, hdigits, rfl⟩
    have hoctet : ∀ piece ∈ pieces, ∃ b, piece.map Char.toLower = octetText b := fun piece h =>
      exists_octetText (hdigits piece h).1 (hdigits piece h).2
    choose! octet hoctet using hoctet
    refine ⟨⟨pieces.map octet, by rw [List.length_map, hlength]⟩, sep, hsep, ?_⟩
    rw [map_toLower_intercalate hsep, groups, List.map_map]
    congr 1
    exact List.map_congr_left hoctet

lemma isWord_of_spells {a : HardwareAddress} {cs : List Char} (h : a.Spells cs) : IsWord cs := by
  obtain ⟨sep, hsep, hlower⟩ := h
  refine ⟨?_, fun c hc => ?_⟩
  · rintro rfl
    simpa using getElem?_two_of_lower hsep hlower
  · have hmem : c.toLower ∈ [sep].intercalate a.groups := hlower ▸ List.mem_map_of_mem hc
    -- a letter, a digit or a separator, and no blank is one of these or an upper-case letter
    have hrange : (48 ≤ c.toLower.toNat ∧ c.toLower.toNat ≤ 58) ∨
        (97 ≤ c.toLower.toNat ∧ c.toLower.toNat ≤ 102) ∨ c.toLower.toNat = 45 := by
      rcases mem_of_mem_intercalate hmem with hc | ⟨group, hgroup, hc⟩
      · simp only [List.mem_cons, List.not_mem_nil, or_false] at hsep
        rcases hsep with rfl | rfl
        · exact .inl (by rw [hc]; decide)
        · exact .inr (.inr (by rw [hc]; rfl))
      · obtain ⟨n, hn, hdigit⟩ := mem_hexDigits hgroup hc
        have hdigits := hexDigit_range hn
        rw [hdigit]
        omega
    rw [toNat_toLower] at hrange
    rw [← Bool.not_eq_true]
    intro hblank
    simp only [isBlank, Bool.or_eq_true, Bool.and_eq_true, decide_eq_true_eq, beq_iff_eq] at hblank
    split at hrange <;> omega

lemma spells_text (a : HardwareAddress) : a.Spells a.text := by
  have hgroups : a.groups.map (·.map Char.toLower) = a.groups := by
    conv_rhs => rw [← List.map_id a.groups]
    refine List.map_congr_left fun group hgroup => ?_
    conv_rhs => rw [id_eq, ← List.map_id group]
    refine List.map_congr_left fun c hc => ?_
    obtain ⟨n, hn, rfl⟩ := mem_hexDigits hgroup hc
    have hrange := hexDigit_range hn
    rw [id_eq, ← Char.toNat_inj, toNat_toLower, if_neg (by omega)]
  refine ⟨':', by simp, ?_⟩
  rw [text, ← groups, map_toLower_intercalate (by simp), hgroups]

lemma parse?_eq_some_iff {s : String} {a : HardwareAddress} :
    parse? s = some a ↔ a.Spells (trim s.toList) :=
  read?_eq_some_iff

lemma normalize?_of_spells {a : HardwareAddress} {s : String} (h : a.Spells (trim s.toList)) :
    normalize? s = some (String.ofList a.text) := by
  rw [normalize?, parse?_eq_some_iff.2 h]
  rfl

lemma normalize?_eq_none_iff {s : String} :
    normalize? s = none ↔ ∀ a : HardwareAddress, ¬ a.Spells (trim s.toList) := by
  rw [normalize?, Option.map_eq_none_iff, Option.eq_none_iff_forall_ne_some]
  simp only [ne_eq, parse?_eq_some_iff]

lemma normalize?_of_unblank {cs : List Char} (h : ∀ c ∈ cs, isBlank c = false) :
    normalize? (String.ofList cs) = (read? cs).map fun a => String.ofList a.text := by
  rw [normalize?, parse?, String.toList_ofList, trim_of_letters h]

lemma Spells.normalize? {a : HardwareAddress} {cs : List Char} (h : a.Spells cs) :
    normalize? (String.ofList cs) = some (String.ofList a.text) := by
  rw [normalize?_of_unblank (isWord_of_spells h).2, read?_eq_some_iff.2 h]
  rfl

lemma normalize?_text (a : HardwareAddress) :
    normalize? (String.ofList a.text) = some (String.ofList a.text) :=
  a.spells_text.normalize?

lemma eq_of_parse?_eq {s t : String} (hs : normalize? s = some s) (ht : normalize? t = some t)
    (h : parse? s = parse? t) : s = t := by
  rw [normalize?, h, ← normalize?, ht, Option.some.injEq] at hs
  exact hs.symm

lemma text_injective {a b : HardwareAddress} (h : a.text = b.text) : a = b :=
  a.spells_text.unique (h ▸ b.spells_text)

end HardwareAddress

end RouterAgent
