/-!
Finite maps that remember the order in which their keys came.

A key keeps the place of its first insertion. Looking up is described by one equation for each
operation.
-/

namespace RouterAgent

/-- A row of entries with distinct keys. -/
structure OrderedMap (κ : Type u) (ν : Type v) where
  entries : List (κ × ν)
  nodup : (entries.map Prod.fst).Nodup

namespace OrderedMap

variable {κ : Type u} {ν : Type v} [DecidableEq κ]

def empty : OrderedMap κ ν := ⟨[], List.nodup_nil⟩

instance : Inhabited (OrderedMap κ ν) := ⟨empty⟩

def keys (m : OrderedMap κ ν) : List κ := m.entries.map Prod.fst

def values (m : OrderedMap κ ν) : List ν := m.entries.map Prod.snd

def size (m : OrderedMap κ ν) : Nat := m.entries.length

def get? (m : OrderedMap κ ν) (k : κ) : Option ν := (m.entries.find? (·.1 = k)).map Prod.snd

def contains (m : OrderedMap κ ν) (k : κ) : Bool := (m.get? k).isSome

theorem get?_empty (k : κ) : (empty : OrderedMap κ ν).get? k = none := rfl

theorem get?_eq_none_iff {m : OrderedMap κ ν} {k : κ} : m.get? k = none ↔ k ∉ m.keys := by
  simp only [get?, keys, Option.map_eq_none_iff, List.find?_eq_none, List.mem_map,
    decide_eq_true_eq, not_exists, not_and]

theorem contains_iff {m : OrderedMap κ ν} {k : κ} : m.contains k = true ↔ k ∈ m.keys := by
  rw [contains, ← Option.ne_none_iff_isSome, Ne, get?_eq_none_iff, Decidable.not_not]

theorem find?_eq_some_iff {es : List (κ × ν)} (h : (es.map Prod.fst).Nodup) {k : κ} {v : ν} :
    (es.find? (·.1 = k)).map Prod.snd = some v ↔ (k, v) ∈ es := by
  induction es with
  | nil => simp
  | cons e es ih =>
    obtain ⟨j, u⟩ := e
    rw [List.map_cons, List.nodup_cons] at h
    by_cases hj : j = k
    · subst hj
      have hv : (j, v) ∉ es := fun hv => h.1 (List.mem_map.2 ⟨(j, v), hv, rfl⟩)
      simp [hv, eq_comm]
    · simp [hj, Ne.symm hj, ih h.2]

theorem get?_eq_some_iff {m : OrderedMap κ ν} {k : κ} {v : ν} :
    m.get? k = some v ↔ (k, v) ∈ m.entries :=
  find?_eq_some_iff m.nodup

theorem mem_keys_of_get? {m : OrderedMap κ ν} {k : κ} {v : ν} (h : m.get? k = some v) :
    k ∈ m.keys :=
  List.mem_map.2 ⟨(k, v), get?_eq_some_iff.1 h, rfl⟩

theorem find?_filter_entries (m : OrderedMap κ ν) (p : κ × ν → Bool) (k : κ) :
    ((m.entries.filter p).reverse.find? (·.1 = k)).map Prod.snd =
      (m.get? k).filter fun v => p (k, v) := by
  have h : ((m.entries.filter p).reverse.map Prod.fst).Nodup := by
    rw [List.map_reverse]
    exact List.pairwise_reverse.2
      ((m.nodup.sublist (List.filter_sublist.map Prod.fst)).imp Ne.symm)
  ext v
  rw [find?_eq_some_iff h, List.mem_reverse, List.mem_filter, Option.filter_eq_some_iff,
    get?_eq_some_iff]

theorem ext_get? {m n : OrderedMap κ ν} (hk : m.keys = n.keys)
    (hg : ∀ k, m.get? k = n.get? k) : m = n := by
  obtain ⟨es, hes⟩ := m
  obtain ⟨fs, hfs⟩ := n
  simp only [keys] at hk
  have hlen : es.length = fs.length := by simpa using congrArg List.length hk
  have hef : es = fs := by
    refine List.ext_getElem hlen fun i h₁ h₂ => ?_
    have hfst : es[i].1 = fs[i].1 := by
      have := List.getElem_of_eq hk (i := i) (by simpa using h₁)
      simpa using this
    have he : (⟨es, hes⟩ : OrderedMap κ ν).get? es[i].1 = some es[i].2 :=
      get?_eq_some_iff.2 (List.getElem_mem h₁)
    have hf : (⟨fs, hfs⟩ : OrderedMap κ ν).get? fs[i].1 = some fs[i].2 :=
      get?_eq_some_iff.2 (List.getElem_mem h₂)
    rw [hg, hfst, hf] at he
    exact Prod.ext hfst (by simpa using he.symm)
  subst hef
  rfl

/-! ### Insertion -/

def replaced (k : κ) (v : ν) (es : List (κ × ν)) : List (κ × ν) :=
  es.map fun e => if e.1 = k then (k, v) else e

theorem map_fst_replaced (k : κ) (v : ν) (es : List (κ × ν)) :
    (replaced k v es).map Prod.fst = es.map Prod.fst := by
  simp only [replaced, List.map_map, List.map_inj_left, Function.comp_apply]
  intro e _
  split <;> simp_all

theorem find?_replaced (k j : κ) (v : ν) (es : List (κ × ν)) :
    ((replaced k v es).find? (·.1 = j)).map Prod.snd =
      if j = k ∧ k ∈ es.map Prod.fst then some v else (es.find? (·.1 = j)).map Prod.snd := by
  induction es with
  | nil => simp [replaced]
  | cons e es ih =>
    simp only [replaced, List.map_cons, List.find?_cons] at ih ⊢
    grind

/-- The map with the value of a key set. A key that is new comes last. -/
def insert (m : OrderedMap κ ν) (k : κ) (v : ν) : OrderedMap κ ν :=
  if h : k ∈ m.keys then ⟨replaced k v m.entries, by rw [map_fst_replaced]; exact m.nodup⟩
  else ⟨m.entries ++ [(k, v)], by
    rw [List.map_append, List.nodup_append]
    exact ⟨m.nodup, by simp, fun a ha b hb hab => h (by simp_all [keys])⟩⟩

theorem keys_insert (m : OrderedMap κ ν) (k : κ) (v : ν) :
    (m.insert k v).keys = if k ∈ m.keys then m.keys else m.keys ++ [k] := by
  unfold insert
  split <;> simp [keys, map_fst_replaced]

theorem get?_insert (m : OrderedMap κ ν) (k j : κ) (v : ν) :
    (m.insert k v).get? j = if j = k then some v else m.get? j := by
  unfold insert
  split
  · next h => simp only [get?, find?_replaced]; simp [show k ∈ m.entries.map Prod.fst from h]
  · next h =>
    have hk : m.get? k = none := get?_eq_none_iff.2 h
    simp only [get?, Option.map_eq_none_iff] at hk
    by_cases hj : j = k
    · subst hj; simp [get?, List.find?_append, hk]
    · simp [get?, List.find?_append, hj, Ne.symm hj]

theorem insert_of_get? {m : OrderedMap κ ν} {k : κ} {v : ν} (h : m.get? k = some v) :
    m.insert k v = m := by
  refine ext_get? ?_ fun j => ?_
  · rw [keys_insert, if_pos (mem_keys_of_get? h)]
  · rw [get?_insert]
    split
    · next hj => rw [hj, h]
    · rfl

/-! ### Removal -/

def erase (m : OrderedMap κ ν) (k : κ) : OrderedMap κ ν :=
  ⟨m.entries.filter (·.1 ≠ k),
    List.Pairwise.sublist (List.filter_sublist.map Prod.fst) m.nodup⟩

theorem get?_erase (m : OrderedMap κ ν) (k j : κ) :
    (m.erase k).get? j = if j = k then none else m.get? j := by
  simp only [erase, get?]
  induction m.entries with
  | nil => simp
  | cons e es ih =>
    simp only [List.filter_cons, List.find?_cons] at ih ⊢
    grind

/-! ### Many entries -/

def insertMany (m : OrderedMap κ ν) (es : List (κ × ν)) : OrderedMap κ ν :=
  es.foldl (fun m e => m.insert e.1 e.2) m

/-- The map of a list of entries; of several values of one key the last one counts. -/
def ofList (es : List (κ × ν)) : OrderedMap κ ν := empty.insertMany es

def eraseMany (m : OrderedMap κ ν) (ks : List κ) : OrderedMap κ ν := ks.foldl erase m

theorem insertMany_cons (m : OrderedMap κ ν) (e : κ × ν) (es : List (κ × ν)) :
    m.insertMany (e :: es) = (m.insert e.1 e.2).insertMany es := rfl

theorem eraseMany_cons (m : OrderedMap κ ν) (k : κ) (ks : List κ) :
    m.eraseMany (k :: ks) = (m.erase k).eraseMany ks := rfl

theorem get?_eraseMany (m : OrderedMap κ ν) (ks : List κ) (j : κ) :
    (m.eraseMany ks).get? j = if j ∈ ks then none else m.get? j := by
  induction ks generalizing m with
  | nil => simp [eraseMany]
  | cons k ks ih =>
    rw [eraseMany_cons, ih, get?_erase]
    grind

theorem get?_insertMany (m : OrderedMap κ ν) (es : List (κ × ν)) (j : κ) :
    (m.insertMany es).get? j =
      ((es.reverse.find? (·.1 = j)).map Prod.snd).or (m.get? j) := by
  induction es generalizing m with
  | nil => simp [insertMany]
  | cons e es ih =>
    rw [insertMany_cons, ih, get?_insert, List.reverse_cons, List.find?_append]
    by_cases h : e.1 = j
    · cases es.reverse.find? (·.1 = j) <;> simp [h]
    · simp [h, Ne.symm h]

theorem keys_insertMany {m : OrderedMap κ ν} {es : List (κ × ν)} (h : ∀ e ∈ es, e.1 ∈ m.keys) :
    (m.insertMany es).keys = m.keys := by
  induction es generalizing m with
  | nil => rfl
  | cons e es ih =>
    have he : (m.insert e.1 e.2).keys = m.keys := by
      rw [keys_insert, if_pos (h e (by simp))]
    rw [insertMany_cons, ih fun f hf => by rw [he]; exact h f (by simp [hf]), he]

theorem insertMany_append (m : OrderedMap κ ν) (as bs : List (κ × ν)) :
    m.insertMany (as ++ bs) = (m.insertMany as).insertMany bs := by
  simp [insertMany]

end OrderedMap

end RouterAgent
