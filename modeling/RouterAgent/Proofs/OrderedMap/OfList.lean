import Mathlib.Data.List.Induction
import Mathlib.Data.List.Nodup
import RouterAgent.OrderedMap

/-!
Ordered maps of a list of entries.
-/

namespace RouterAgent

namespace OrderedMap

variable {κ : Type*} {ν : Type*} [DecidableEq κ]

lemma ofList_concat (es : List (κ × ν)) (e : κ × ν) :
    ofList (es ++ [e]) = (ofList es).insert e.1 e.2 := by
  rw [ofList, insertMany_append]
  rfl

lemma keys_ofList (es : List (κ × ν)) : (ofList es).keys = (es.map Prod.fst).eraseDups := by
  induction es using List.reverseRecOn with
  | nil => rfl
  | append_singleton es e ih =>
    rw [ofList_concat, keys_insert, ih, List.map_append, List.map_singleton, List.eraseDups_append]
    by_cases hmem : e.1 ∈ es.map Prod.fst
    · rw [if_pos (List.mem_eraseDups.2 hmem)]
      simp [List.removeAll, hmem]
    · rw [if_neg (List.mem_eraseDups.not.2 hmem)]
      simp [List.removeAll, hmem, List.eraseDups_cons]

lemma get?_ofList (es : List (κ × ν)) (k : κ) :
    (ofList es).get? k = (es.reverse.find? (·.1 = k)).map Prod.snd := by
  rw [ofList, get?_insertMany, get?_empty, Option.or_none]

lemma entries_insert {m : OrderedMap κ ν} {k : κ} (h : k ∉ m.keys) (v : ν) :
    (m.insert k v).entries = m.entries ++ [(k, v)] := by
  rw [insert, dif_neg h]

lemma entries_ofList {es : List (κ × ν)} (h : (es.map Prod.fst).Nodup) :
    (ofList es).entries = es := by
  induction es using List.reverseRecOn with
  | nil => rfl
  | append_singleton es e ih =>
    rw [List.map_append, List.map_singleton, ← List.concat_eq_append, List.nodup_concat] at h
    have hnew : e.1 ∉ (ofList es).keys := by
      rw [keys_ofList, List.mem_eraseDups]
      exact h.1
    rw [ofList_concat, entries_insert hnew, ih h.2]

lemma values_eq_filterMap (m : OrderedMap κ ν) : m.values = m.keys.filterMap m.get? := by
  have hentry : ∀ e ∈ m.entries, m.get? e.1 = some e.2 := fun e he => get?_eq_some_iff.2 he
  calc m.values = m.entries.filterMap fun e => some e.2 := by simp [values]
    _ = m.entries.filterMap fun e => m.get? e.1 :=
      List.filterMap_congr fun e he => (hentry e he).symm
    _ = m.keys.filterMap m.get? := by rw [keys, List.filterMap_map]; rfl

end OrderedMap

end RouterAgent
