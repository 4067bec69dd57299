/-
Laws of maps that remember the order of their keys: a look-up finds exactly the pairs of the map,
a new key goes to the end, a change is seen under its own key only, and no change leaves a map
empty. A list from which repetitions are taken out grows like the keys of a map (`eraseDups_concat`).
-/
import MiniProgram.OrderedMap

namespace MiniProgram

/-- With one more element, a list without its repetitions grows at its end, or not at all. -/
theorem eraseDups_concat {α : Type} [DecidableEq α] (l : List α) (a : α) :
    (l ++ [a]).eraseDups = if a ∈ l then l.eraseDups else l.eraseDups ++ [a] := by
  rw [List.eraseDups_append]
  split <;> rename_i h
  · simp [List.removeAll, h]
  · simp [List.removeAll, h, List.eraseDups_cons]

end MiniProgram

namespace MiniProgram.OrderedMap

variable {κ ν : Type} {m : OrderedMap κ ν} {k : κ} {v : ν}

theorem mem_keys_of_mem_entries (h : (k, v) ∈ m.entries) : k ∈ m.keys :=
  List.mem_map.2 ⟨(k, v), h, rfl⟩

variable [DecidableEq κ]

theorem contains_iff : m.contains k = true ↔ k ∈ m.keys := by
  simp [contains]

/-! ## Look-ups -/

/-- In a list of pairs with distinct keys, the first pair of a key is the only one. -/
theorem find?_entries_of_mem : ∀ {es : List (κ × ν)}, (es.map Prod.fst).Nodup → (k, v) ∈ es →
    es.find? (fun e => e.1 = k) = some (k, v)
  | (k', v') :: es, hnd, h => by
    rw [List.map_cons, List.nodup_cons] at hnd
    rcases List.mem_cons.1 h with h | h
    · cases h; simp
    · have hne : k' ≠ k := by
        rintro rfl
        exact hnd.1 (List.mem_map.2 ⟨(k', v), h, rfl⟩)
      rw [List.find?_cons_of_neg (by simpa using hne)]
      exact find?_entries_of_mem hnd.2 h

/-- A look-up finds exactly the pairs of the map. -/
theorem find?_eq_some_iff : m.find? k = some v ↔ (k, v) ∈ m.entries := by
  constructor
  · exact mem_entries_of_find?
  · intro h
    unfold find?
    rw [find?_entries_of_mem m.nodup h]
    rfl

/-! ## Changes -/

theorem alterEntries_of_not_mem {f : Option ν → ν} : ∀ {es : List (κ × ν)}, k ∉ es.map Prod.fst →
    alterEntries k f es = es ++ [(k, f none)]
  | [], _ => rfl
  | (k', v') :: es, h => by
    rw [List.map_cons, List.mem_cons, not_or] at h
    rw [alterEntries, if_neg (Ne.symm h.1), alterEntries_of_not_mem h.2, List.cons_append]

/-- A new key goes to the end. -/
theorem entries_insert_of_not_mem (h : k ∉ m.keys) : (m.insert k v).entries = m.entries ++ [(k, v)] :=
  alterEntries_of_not_mem h

theorem alterEntries_ne_nil (f : Option ν → ν) (es : List (κ × ν)) : alterEntries k f es ≠ [] := by
  rcases es with _ | ⟨⟨k', v'⟩, es⟩
  · simp [alterEntries]
  · simp only [alterEntries]
    split <;> simp

theorem find?_alterEntries_self (f : Option ν → ν) : ∀ es : List (κ × ν),
    ((alterEntries k f es).find? fun e => e.1 = k).map Prod.snd =
      some (f ((es.find? fun e => e.1 = k).map Prod.snd))
  | [] => by simp [alterEntries]
  | (k', v') :: es => by
    rw [alterEntries]
    split
    · rename_i h
      rw [List.find?_cons_of_pos (by simpa using h), List.find?_cons_of_pos (by simpa using h)]
      rfl
    · rename_i h
      rw [List.find?_cons_of_neg (by simpa using h), List.find?_cons_of_neg (by simpa using h)]
      exact find?_alterEntries_self f es

theorem find?_alterEntries_of_ne {k' : κ} (f : Option ν → ν) (hk : k' ≠ k) : ∀ es : List (κ × ν),
    ((alterEntries k f es).find? fun e => e.1 = k') = es.find? fun e => e.1 = k'
  | [] => by simp [alterEntries, Ne.symm hk]
  | (k'', v') :: es => by
    rw [alterEntries]
    split
    · rename_i h
      subst h
      rw [List.find?_cons_of_neg (by simpa using Ne.symm hk), List.find?_cons_of_neg (by simpa using Ne.symm hk)]
    · rw [List.find?_cons, List.find?_cons, find?_alterEntries_of_ne f hk es]

/-- A change is seen under its key and under no other. -/
theorem find?_alter (k' : κ) (f : Option ν → ν) :
    (m.alter k f).find? k' = if k' = k then some (f (m.find? k)) else m.find? k' := by
  unfold find? alter
  split
  · rename_i h
    subst h
    exact find?_alterEntries_self f m.entries
  · rename_i h
    rw [find?_alterEntries_of_ne f h]

/-- A map that was given a value is not empty. -/
theorem isEmpty_alter (f : Option ν → ν) : (m.alter k f).isEmpty = false :=
  List.isEmpty_eq_false_iff.2 (alterEntries_ne_nil f m.entries)

/-- A key stays where it was first put. -/
theorem keys_alter (f : Option ν → ν) :
    (m.alter k f).keys = if k ∈ m.keys then m.keys else m.keys ++ [k] := by
  have h : ∀ es : List (κ × ν), (alterEntries k f es).map Prod.fst =
      if k ∈ es.map Prod.fst then es.map Prod.fst else es.map Prod.fst ++ [k] := by
    intro es
    induction es with
    | nil => rfl
    | cons e es ih =>
      rw [alterEntries]
      by_cases hk : e.1 = k
      · rw [if_pos hk, if_pos (by simp [hk])]
        rfl
      · rw [if_neg hk, List.map_cons, List.map_cons, ih]
        simp only [List.mem_cons, Ne.symm hk, false_or]
        split <;> rfl
  exact h m.entries

theorem mem_keys_insert {k' : κ} : k' ∈ (m.insert k v).keys ↔ k' ∈ m.keys ∨ k' = k := mem_map_fst_alterEntries

theorem mem_keys_ofList {es : List (κ × ν)} : k ∈ (ofList es).keys ↔ k ∈ es.map Prod.fst := by
  have hfold : ∀ (es : List (κ × ν)) (m : OrderedMap κ ν),
      k ∈ (es.foldl (fun m e => m.insert e.1 e.2) m).keys ↔ k ∈ m.keys ∨ k ∈ es.map Prod.fst := by
    intro es
    induction es with
    | nil => simp
    | cons e es ih =>
      intro m
      rw [List.foldl_cons, ih, mem_keys_insert, List.map_cons, List.mem_cons, or_assoc]
  rw [ofList, hfold]
  simp [empty, keys]

end MiniProgram.OrderedMap
