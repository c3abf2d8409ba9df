import RouterAgent.Proofs.HardwareAddress.Spelling
import RouterAgent.Proofs.Lease.Torn
import RouterAgent.Proofs.Text.Numeral

/-!
Leases that are written one a line.

What is written is read back, whatever lines without a lease stand between, and a flawed line among
them is reported with its number.
-/

namespace RouterAgent.Lease.Dnsmasq

open RouterAgent.Text

/-! ### Leases -/

/-- A lease to be written: the second at which it ends, the hardware address in one of its
spellings, the network address, the name if there is one, and an identifier. -/
structure Record where
  ends : Int
  address : HardwareAddress
  spelling : List Char
  ip : List Char
  hostname : List Char
  id : List Char
  natAbs_ends : ends.natAbs < Nat.pow 10 maxDigits
  spells : address.Spells spelling
  isWord_ip : IsWord ip
  unblank_hostname : ∀ c ∈ hostname, isBlank c = false
  hostname_ne : hostname ≠ ['*']
  isWord_id : IsWord id

namespace Record

def nameField (r : Record) : List Char := if r.hostname = [] then ['*'] else r.hostname

def line (r : Record) : List Char :=
  [' '].intercalate [(ofInteger r.ends).toList, r.spelling, r.ip, r.nameField, r.id]

def client (r : Record) (source : String) : Client where
  mac := String.ofList r.address.text
  ip := String.ofList r.ip
  hostname := String.ofList r.hostname
  expires := some r.ends
  source

lemma isWord_nameField (r : Record) : IsWord r.nameField := by
  unfold nameField
  split
  · simp [IsWord, isBlank]
  · next hne => exact ⟨hne, r.unblank_hostname⟩

lemma hostname_nameField (r : Record) :
    Dnsmasq.hostname r.nameField = String.ofList r.hostname := by
  by_cases h : r.hostname = []
  · rw [nameField, if_pos h, h]
    rfl
  · rw [nameField, if_neg h, Dnsmasq.hostname, if_neg r.hostname_ne]

def entry (r : Record) : Entry :=
  .ofWords (ofInteger r.ends).toList r.spelling r.ip r.nameField r.id r.ends
    (String.ofList r.address.text)
    (by
      simp only [List.forall_mem_cons, List.not_mem_nil, false_implies, implies_true, and_true]
      exact ⟨isWord_ofInteger r.ends, HardwareAddress.isWord_of_spells r.spells, r.isWord_ip,
        r.isWord_nameField, r.isWord_id⟩)
    (integer?_ofInteger r.natAbs_ends) r.spells.normalize?

lemma client_entry (r : Record) (source : String) : r.entry.client source = r.client source := by
  have hname : r.entry.client source =
      { r.client source with hostname := Dnsmasq.hostname r.nameField } := rfl
  rw [hname, r.hostname_nameField]
  rfl

lemma readAs_line (r : Record) (source : String) :
    ReadAs source r.line (some (r.client source)) := by
  rw [← r.client_entry]
  exact r.entry.readAs_line source

end Record

/-! ### Rows -/

/-- A line of a file: a lease, or one of the three kinds of lines without a lease. -/
inductive Row where
  | lease (r : Record)
  | blank (line : List Char) (unbroken : Unbroken line)
      (words_line : words line = [])
  | duid (line : List Char) (unbroken : Unbroken line)
      (head?_words : (words line).head? = some "duid".toList)
  | other (line : List Char) (unbroken : Unbroken line)
      (many : 4 ≤ (words line).length)
      (unaddressed : ∀ mac, (words line)[1]? = some mac → ∀ a : HardwareAddress, ¬ a.Spells mac)

namespace Row

def line : Row → List Char
  | lease r => r.line
  | blank line _ _ => line
  | duid line _ _ => line
  | other line _ _ _ => line

def client? (source : String) : Row → Option Client
  | lease r => some (r.client source)
  | _ => none

end Row

lemma unaddressed_iff {line mac : List Char} (h : mac ∈ words line) :
    HardwareAddress.normalize? (String.ofList mac) = none ↔
      ∀ a : HardwareAddress, ¬ a.Spells mac := by
  rw [HardwareAddress.normalize?_eq_none_iff, String.toList_ofList,
    trim_of_letters (unblank_of_mem_words h)]

namespace Row

lemma readAs_line (row : Row) (source : String) : ReadAs source row.line (row.client? source) := by
  intro n
  cases row with
  | lease r => exact r.readAs_line source n
  | blank line unbroken words_line =>
    rw [Row.line, words_line]
    rfl
  | duid line unbroken head?_words =>
    obtain ⟨rest, hwords⟩ := List.head?_eq_some_iff.1 head?_words
    simp only [Row.line, hwords, Dnsmasq.client?, if_true, Row.client?]
  | other line unbroken many unaddressed =>
    obtain ⟨first, mac, ip, name, rest, hwords⟩ :
        ∃ first mac ip name rest, words line = first :: mac :: ip :: name :: rest := by
      rcases hwords : words line with _ | ⟨first, _ | ⟨mac, _ | ⟨ip, _ | ⟨name, rest⟩⟩⟩⟩
      all_goals simp_all
    have hmac : mac ∈ words line := by simp [hwords]
    have hnone : HardwareAddress.normalize? (String.ofList mac) = none :=
      (unaddressed_iff hmac).2 (unaddressed mac (by simp [hwords]))
    simp only [Row.line, hwords, Dnsmasq.client?, hnone, ite_self, Row.client?]

lemma unbroken_line (row : Row) : Unbroken row.line := by
  cases row with
  | lease r => exact r.entry.unbroken
  | blank line unbroken words_line => exact unbroken
  | duid line unbroken head?_words => exact unbroken
  | other line unbroken many unaddressed => exact unbroken

def text (rows : List Row) : List Char := ofLines (rows.map line)

lemma lines_text (rows : List Row) : lines (text rows) = rows.map line := by
  refine lines_ofLines fun l hl => ?_
  obtain ⟨row, -, rfl⟩ := List.mem_map.1 hl
  exact row.unbroken_line

end Row

/-! ### Flawed lines -/

/-- A line that is an error: it has three words or fewer, or a hardware address after what is no
whole number. -/
inductive Flawed (n : ℕ) (line : List Char) : Problem → Prop
  | short {first : List Char} {rest : List (List Char)} (words_line : words line = first :: rest)
      (few : rest.length < 3) (first_ne : first ≠ "duid".toList) :
      Flawed n line (.tooFewFields n (rest.length + 1))
  | endless {first mac ip name : List Char} {rest : List (List Char)} {a : HardwareAddress}
      (words_line : words line = first :: mac :: ip :: name :: rest) (spells : a.Spells mac)
      (first_ne : first ≠ "duid".toList) (unread : integer? first = none) :
      Flawed n line (.badExpiry n (String.ofList first))

namespace Flawed

variable {n : ℕ} {line : List Char} {problem : Problem}

lemma client?_eq (h : Flawed n line problem) (source : String) :
    client? source n (words line) = .error problem := by
  cases h with
  | @short first rest words_line few first_ne =>
    simp only [words_line, client?, if_neg first_ne]
    split
    · simp only [List.length_cons] at few
      omega
    · rfl
  | @endless first mac ip name rest a words_line spells first_ne unread =>
    simp only [words_line, client?, if_neg first_ne, spells.normalize?, unread]

lemma numbered_append (n : ℕ) (said more : String) :
    "line " ++ toString n ++ (": " ++ said) ++ more = s!"line {n}: " ++ (said ++ more) := by
  simp only [String.append_assoc, toString]

lemma reason_eq (h : Flawed n line problem) : ∃ why, problem.reason = s!"line {n}: " ++ why := by
  cases h with
  | @short first rest words_line few first_ne =>
    exact ⟨_, numbered_append n "expected at least 4 fields, got " (toString (rest.length + 1))⟩
  | @endless first mac ip name rest a words_line spells first_ne unread =>
    exact ⟨_, numbered_append n "bad expiry " (quoted (String.ofList first))⟩

end Flawed

/-- **What is written is read back.** A text of leases and of lines without one lists the clients of
its leases, one for each hardware address in whatever spellings, the last one of several. If a
flawed line comes after such lines, the text is an error, whatever comes behind, and the number of
this line is given. -/
theorem rows_are_read_back (source : String) (rows : List Row) :
    lines (Row.text rows) = rows.map Row.line ∧
    (∀ text, lines text = rows.map Row.line →
      parse source text = .ok (Client.lastOfEach (rows.filterMap (Row.client? source)))) ∧
    ∀ text line after problem, lines text = rows.map Row.line ++ line :: after →
      Flawed (rows.length + 1) line problem →
      parse source text = .error problem ∧
        ∃ why, problem.reason = s!"line {rows.length + 1}: " ++ why := by
  have hrows : ∀ row ∈ rows, ReadAs source row.line (row.client? source) := fun row _ =>
    row.readAs_line source
  refine ⟨Row.lines_text rows, fun text hlines => parse_of_lines hlines hrows, ?_⟩
  intro text line after problem hlines hflawed
  refine ⟨?_, hflawed.reason_eq⟩
  rw [parse_of_readAs hlines hrows, List.zipIdx_cons, List.mapM_cons]
  simp only [hflawed.client?_eq source]
  rfl

def firstAddress : HardwareAddress := ⟨[170, 0, 0, 0, 0, 1], rfl⟩

def namelessLease : Record where
  ends := -7
  address := firstAddress
  spelling := "AA-00-00-00-00-01".toList
  ip := "10.0.0.7".toList
  hostname := []
  id := "*".toList
  natAbs_ends := by decide +kernel
  spells := by decide +kernel
  isWord_ip := by decide
  unblank_hostname := by simp
  hostname_ne := by simp
  isWord_id := by decide

def namedLease : Record where
  ends := 8
  address := firstAddress
  spelling := "aA:00:00:00:00:01".toList
  ip := "10.0.0.2".toList
  hostname := "tv".toList
  id := "*".toList
  natAbs_ends := by decide +kernel
  spells := by decide +kernel
  isWord_ip := by decide
  unblank_hostname := by simp [isBlank]
  hostname_ne := by decide
  isWord_id := by decide

def mixedRows : List Row :=
  [.lease namelessLease,
   .blank " ".toList (by decide) (by decide),
   .duid "duid 00:01".toList (by decide) (by decide),
   .other "1 DE:AD fe80::1 tv".toList (by decide) (by decide) (by
      have hwords : "DE:AD".toList ∈ words "1 DE:AD fe80::1 tv".toList := by decide
      intro mac hmac
      obtain rfl : mac = "DE:AD".toList := by
        have hsecond : (words "1 DE:AD fe80::1 tv".toList)[1]? = some "DE:AD".toList := by decide
        rw [hsecond] at hmac
        exact (Option.some.inj hmac).symm
      exact (unaddressed_iff hwords).1 (by decide +kernel)),
   .lease namedLease]

def endlessLine : List Char := "soon aa:00:00:00:00:01 10.0.0.3 *".toList

theorem rows_are_read_back_mixed :
    parse "" (Row.text mixedRows) =
      .ok [⟨"aa:00:00:00:00:01", "10.0.0.2", "tv", some 8, ""⟩] ∧
    parse "" (Row.text mixedRows ++ endlessLine) = .error (.badExpiry 6 "soon") := by
  obtain ⟨hlines, hread, hflawed⟩ := rows_are_read_back "" mixedRows
  constructor
  · rw [hread _ hlines]
    decide +kernel
  · have hwords : words endlessLine =
        ["soon".toList, "aa:00:00:00:00:01".toList, "10.0.0.3".toList, "*".toList] := by decide
    have hspells : firstAddress.Spells "aa:00:00:00:00:01".toList := by decide +kernel
    have hendless : Flawed 6 endlessLine (.badExpiry 6 "soon") :=
      .endless hwords hspells (by decide) (by decide +kernel)
    exact (hflawed (Row.text mixedRows ++ endlessLine) endlessLine [] _ (by decide +kernel)
      hendless).1

end RouterAgent.Lease.Dnsmasq
