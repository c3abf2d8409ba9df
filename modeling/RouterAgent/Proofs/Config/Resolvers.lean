import RouterAgent.Proofs.Config.Accepted
import RouterAgent.Proofs.OrderedMap.OfList

/-!
The resolvers of a configuration that was accepted.

A resolver is named by the text of its key. Keys that are not one key can have one text, and then
the last of their entries is the only one that is kept.
-/

namespace RouterAgent

open RouterAgent.Text

namespace Config

def listed (raw : Value) : Except Fault (List (Value × Value)) := do
  part (← mapping raw) "upstreams"

def tells : Value × Value → Bool
  | (_, .mapping fields) => (Value.lookup fields "send_client_info").any Value.truth
  | _ => false

/-- What an entry says of its resolver. -/
structure Describes (e : Value × Value) (r : Resolver) : Prop where
  name : e.1.text? = some r.name
  endpoint : ∃ fields, e.2 = .mapping fields ∧
    ((Value.lookup fields "endpoint").getD (.text "")).text? = some r.endpoint
  sendsClientInfo : r.sendsClientInfo = tells e

lemma text_eq_ok {v : Value} {ps : Points} : text v = .ok ps ↔ v.text? = some ps := by
  rw [text]
  cases v.text? <;> simp

lemma mapping_eq_ok {v : Value} {es : List (Value × Value)} : mapping v = .ok es ↔ v = .mapping es := by
  cases v <;> simp [mapping]

lemma describes_of_resolver {e : Value × Value} {r : Resolver} (h : resolver e.1 e.2 = .ok r) :
    Describes e r := by
  obtain ⟨key, value⟩ := e
  obtain ⟨name, hname, h⟩ := bind_eq_ok.1 h
  obtain ⟨fields, hfields, h⟩ := bind_eq_ok.1 h
  obtain ⟨endpoint, hendpoint, h⟩ := bind_eq_ok.1 h
  obtain rfl := pure_eq_ok.1 h
  obtain rfl := mapping_eq_ok.1 hfields
  refine ⟨text_eq_ok.1 hname, ⟨fields, rfl, text_eq_ok.1 hendpoint⟩, ?_⟩
  simp only [tells]
  cases Value.lookup fields "send_client_info" <;> rfl

lemma described {raw : Value} {c : Config} (accepted : parse raw = .ok c) :
    ∃ es rs, listed raw = .ok es ∧ List.Forall₂ Describes es rs ∧
      c.resolvers = .ofList (rs.map fun r => (r.name, r)) := by
  obtain ⟨root, es, hroot, hes, hread⟩ := (parsed accepted).resolvers
  obtain ⟨rs, hrs, h⟩ := bind_eq_ok.1 hread
  exact ⟨es, rs, bind_eq_ok.2 ⟨root, hroot, hes⟩,
    (mapM_eq_ok_iff.1 hrs).imp fun _ _ => describes_of_resolver, (pure_eq_ok.1 h).symm⟩

lemma find?_reverse_eq_some_iff {p : α → Bool} {as : List α} {a : α} :
    as.reverse.find? p = some a ↔
      p a = true ∧ ∃ before after, as = before ++ a :: after ∧ ∀ b ∈ after, p b = false := by
  rw [List.find?_eq_some_iff_append]
  refine and_congr_right fun _ => ⟨?_, ?_⟩
  · rintro ⟨as₁, as₂, has, hall⟩
    refine ⟨as₂.reverse, as₁.reverse, ?_, fun b hb => by simpa using hall b (by simpa using hb)⟩
    rw [← List.reverse_reverse as, has]
    simp
  · rintro ⟨before, after, rfl, hall⟩
    exact ⟨after.reverse, before.reverse, by simp, fun b hb => by simp [hall b (by simpa using hb)]⟩

section

variable {c : Config} {rs : List Resolver} (hrs : c.resolvers = .ofList (rs.map fun r => (r.name, r)))

include hrs

lemma get?_resolvers (name : Points) :
    c.resolvers.get? name = rs.reverse.find? (·.name = name) := by
  rw [hrs, OrderedMap.get?_ofList, ← List.map_reverse, List.find?_map, Option.map_map]
  exact Option.map_id'

lemma keys_resolvers : c.resolvers.keys = (rs.map (·.name)).eraseDups := by
  rw [hrs, OrderedMap.keys_ofList, List.map_map]
  congr 1
  exact lawful_beq_subsingleton _ _

lemma entries_resolvers (h : (rs.map (·.name)).Nodup) :
    c.resolvers.entries = rs.map fun r => (r.name, r) := by
  rw [hrs, OrderedMap.entries_ofList (by rwa [List.map_map])]

lemma sendsClientInfo_iff : c.sendsClientInfo = true ↔
    ∃ before r after, rs = before ++ r :: after ∧ r.sendsClientInfo = true ∧
      ∀ s ∈ after, s.name ≠ r.name := by
  have hkept : c.sendsClientInfo = true ↔
      ∃ name r, c.resolvers.get? name = some r ∧ r.sendsClientInfo = true := by
    simp [sendsClientInfo, OrderedMap.values, OrderedMap.get?_eq_some_iff]
  simp only [hkept, get?_resolvers hrs, find?_reverse_eq_some_iff, decide_eq_true_eq,
    decide_eq_false_iff_not]
  constructor
  · rintro ⟨_, r, ⟨rfl, before, after, heq, hlast⟩, hr⟩
    exact ⟨before, r, after, heq, hr, hlast⟩
  · rintro ⟨before, r, after, heq, hr, hlast⟩
    exact ⟨r.name, r, ⟨rfl, before, after, heq, hlast⟩, hr⟩

end

lemma names_of_describes {es : List (Value × Value)} {rs : List Resolver}
    (h : List.Forall₂ Describes es rs) : es.map (·.1.text?) = rs.map (some ·.name) := by
  induction h with
  | nil => rfl
  | cons hd _ ih => rw [List.map_cons, List.map_cons, hd.name, ih]

lemma exists_last_iff {es : List (Value × Value)} {rs : List Resolver}
    (h : List.Forall₂ Describes es rs) :
    (∃ before r after, rs = before ++ r :: after ∧ r.sendsClientInfo = true ∧
      ∀ s ∈ after, s.name ≠ r.name) ↔
    ∃ before e after, es = before ++ e :: after ∧ tells e = true ∧
      ∀ f ∈ after, f.1.text? ≠ e.1.text? := by
  constructor
  · rintro ⟨before, r, after, rfl, hr, hlast⟩
    obtain ⟨es₁, e, es₂, rfl, he, hafter⟩ := split_of_forall₂ h
    refine ⟨es₁, e, es₂, rfl, he.sendsClientInfo ▸ hr, fun f hf => ?_⟩
    obtain ⟨s, hs, hfs⟩ := exists_of_forall₂ hafter hf
    rw [hfs.name, he.name, Ne, Option.some.injEq]
    exact hlast s hs
  · rintro ⟨before, e, after, rfl, he, hlast⟩
    obtain ⟨rs₁, r, rs₂, rfl, hr, hafter⟩ := split_of_forall₂ h.flip
    refine ⟨rs₁, r, rs₂, rfl, hr.sendsClientInfo ▸ he, fun s hs => ?_⟩
    obtain ⟨f, hf, hfs⟩ := exists_of_forall₂ hafter hs
    have hne := hlast f hf
    rwa [hfs.name, hr.name, Ne, Option.some.injEq] at hne

lemma exists_last_iff_of_nodup {es : List (Value × Value)} (h : (es.map (·.1.text?)).Nodup) :
    (∃ before e after, es = before ++ e :: after ∧ tells e = true ∧
      ∀ f ∈ after, f.1.text? ≠ e.1.text?) ↔ ∃ e ∈ es, tells e = true := by
  constructor
  · rintro ⟨before, e, after, rfl, htells, -⟩
    exact ⟨e, by simp, htells⟩
  · rintro ⟨e, he, htells⟩
    obtain ⟨before, after, rfl⟩ := List.append_of_mem he
    refine ⟨before, e, after, rfl, htells, fun f hf hfe => ?_⟩
    rw [List.map_append, List.map_cons, List.nodup_middle, List.nodup_cons] at h
    exact h.1 (List.mem_append_right _ (List.mem_map.2 ⟨f, hf, hfe⟩))

/-- **What becomes of the entries.** Each entry of an accepted value describes a resolver. The names
of the resolvers stand in the order in which they come first, and each name has the last resolver of
that name. A resolver is told about clients exactly if an entry says so that no later entry of the
same name replaces. Where the names are distinct, all the resolvers are there, in order, and one is
told about clients exactly if an entry says so. -/
theorem resolvers_of_entries {raw : Value} {c : Config} (accepted : parse raw = .ok c) :
    ∃ es rs, listed raw = .ok es ∧ List.Forall₂ Describes es rs ∧
      c.resolvers.keys = (rs.map (·.name)).eraseDups ∧
      (∀ name, c.resolvers.get? name = rs.reverse.find? (·.name = name)) ∧
      (c.sendsClientInfo = true ↔ ∃ before e after, es = before ++ e :: after ∧ tells e = true ∧
        ∀ f ∈ after, f.1.text? ≠ e.1.text?) ∧
      ((es.map (·.1.text?)).Nodup →
        c.resolvers.entries = rs.map (fun r => (r.name, r)) ∧
        (c.sendsClientInfo = true ↔ ∃ e ∈ es, tells e = true)) := by
  obtain ⟨es, rs, hes, hdescribes, hrs⟩ := described accepted
  have hsends := (sendsClientInfo_iff hrs).trans (exists_last_iff hdescribes)
  refine ⟨es, rs, hes, hdescribes, keys_resolvers hrs, get?_resolvers hrs, hsends, fun hdistinct => ?_⟩
  have hnames : (rs.map (·.name)).Nodup := by
    rw [names_of_describes hdescribes] at hdistinct
    exact List.Nodup.of_map some (by rwa [List.map_map])
  exact ⟨entries_resolvers hrs hnames, hsends.trans (exists_last_iff_of_nodup hdistinct)⟩

def resolversOnly (es : List (Value × Value)) : Value := .mapping [(.text "upstreams", .mapping es)]

lemma listed_resolversOnly (es : List (Value × Value)) : listed (resolversOnly es) = .ok es := by
  cases es <;> rfl

def telling (name : Value) : Value × Value :=
  (name, .mapping [(.text "send_client_info", .bool true)])

def silent (name : Value) : Value × Value := (name, .mapping [])

theorem resolvers_of_entries_twoNames :
    ∃ c, parse (resolversOnly [telling (.text "lan"), silent (.text "wan")]) = .ok c ∧
      c.resolvers.entries.length = 2 ∧ c.sendsClientInfo = true := by
  cases accepted : parse (resolversOnly [telling (.text "lan"), silent (.text "wan")]) with
  | error fault =>
    have hok : (parse (resolversOnly [telling (.text "lan"), silent (.text "wan")])).isOk = true := by
      decide +kernel
    simp [accepted, Except.isOk, Except.toBool] at hok
  | ok c =>
    obtain ⟨es, rs, hes, hdescribes, -, -, -, hdistinct⟩ := resolvers_of_entries accepted
    obtain rfl := Except.ok.inj ((listed_resolversOnly _).symm.trans hes)
    obtain ⟨hentries, hsends⟩ := hdistinct (by decide +kernel)
    refine ⟨c, rfl, ?_, hsends.2 ⟨_, List.mem_cons_self, by decide +kernel⟩⟩
    rw [hentries, List.length_map, ← hdescribes.length_eq]
    rfl

/-- Two keys of one text lose a resolver, and with it that clients are told of. -/
theorem resolvers_of_entries_may_be_lost :
    ¬ ∀ (raw : Value) (c : Config), parse raw = .ok c →
      ∃ es rs, listed raw = .ok es ∧ List.Forall₂ Describes es rs ∧
        c.resolvers.entries = rs.map (fun r => (r.name, r)) ∧
        (c.sendsClientInfo = true ↔ ∃ e ∈ es, tells e = true) := by
  intro h
  have hlost : (parse (resolversOnly [telling (.int 0), silent (.text "0")])).toOption.map
      (·.sendsClientInfo) = some false := by decide +kernel
  cases accepted : parse (resolversOnly [telling (.int 0), silent (.text "0")]) with
  | error fault => simp [accepted, Except.toOption] at hlost
  | ok c =>
    obtain ⟨es, -, hes, -, -, hsends⟩ := h _ c accepted
    obtain rfl := Except.ok.inj ((listed_resolversOnly _).symm.trans hes)
    have htold := hsends.2 ⟨_, List.mem_cons_self, by decide +kernel⟩
    simp [accepted, Except.toOption, htold] at hlost

end Config

end RouterAgent
