/-
Maps that remember the order in which their keys were first used. A map is a list of pairs with
distinct keys; changing the value of a key keeps its place, a new key goes to the end.
-/

namespace MiniProgram

/-- A finite map whose keys are ordered by first use. -/
structure OrderedMap (κ ν : Type) where
  entries : List (κ × ν)
  nodup : (entries.map Prod.fst).Nodup

namespace OrderedMap

variable {κ ν : Type}

instance [DecidableEq κ] [DecidableEq ν] : DecidableEq (OrderedMap κ ν) := fun m n =>
  if h : m.entries = n.entries then
    .isTrue (by cases m; cases n; cases h; rfl)
  else .isFalse (fun e => h (e ▸ rfl))

def empty : OrderedMap κ ν := ⟨[], List.Pairwise.nil⟩

instance : Inhabited (OrderedMap κ ν) := ⟨empty⟩

def keys (m : OrderedMap κ ν) : List κ := m.entries.map Prod.fst

def values (m : OrderedMap κ ν) : List ν := m.entries.map Prod.snd

def size (m : OrderedMap κ ν) : Nat := m.entries.length

def isEmpty (m : OrderedMap κ ν) : Bool := m.entries.isEmpty

theorem nodup_filterMap {μ : Type} {f : κ → ν → Option μ} {es : List (κ × ν)}
    (h : (es.map Prod.fst).Nodup) :
    ((es.filterMap fun e => (f e.1 e.2).map (e.1, ·)).map Prod.fst).Nodup := by
  refine h.sublist ?_
  induction es with
  | nil => exact List.Sublist.refl _
  | cons e es ih =>
    have ih' := ih (List.nodup_cons.1 h).2
    cases he : f e.1 e.2 with
    | none => simpa [he] using ih'.cons _
    | some v => simpa [he] using ih'

/-- Change every value, and drop the keys whose value becomes nothing. -/
def filterMap {μ : Type} (m : OrderedMap κ ν) (f : κ → ν → Option μ) : OrderedMap κ μ :=
  ⟨m.entries.filterMap fun e => (f e.1 e.2).map (e.1, ·), nodup_filterMap m.nodup⟩

theorem nodup_filter {p : κ × ν → Bool} {es : List (κ × ν)} (h : (es.map Prod.fst).Nodup) :
    ((es.filter p).map Prod.fst).Nodup :=
  List.Nodup.sublist (List.filter_sublist.map _) h

variable [DecidableEq κ]

/-- The value of a key. -/
def find? (m : OrderedMap κ ν) (k : κ) : Option ν :=
  (m.entries.find? (fun e => e.1 = k)).map Prod.snd

def contains (m : OrderedMap κ ν) (k : κ) : Bool := k ∈ m.keys

theorem mem_entries_of_find? {m : OrderedMap κ ν} {k : κ} {v : ν} (h : m.find? k = some v) :
    (k, v) ∈ m.entries := by
  obtain ⟨e, he, rfl⟩ := Option.map_eq_some_iff.1 h
  have hk := List.find?_some he
  simp only [decide_eq_true_eq] at hk
  exact hk ▸ List.mem_of_find?_eq_some he

theorem mem_keys_of_find? {m : OrderedMap κ ν} {k : κ} {v : ν} (h : m.find? k = some v) :
    k ∈ m.keys :=
  List.mem_map.2 ⟨(k, v), mem_entries_of_find? h, rfl⟩

/-- Put `f old` under `k` in place, or `f none` at the end if `k` is new. -/
def alterEntries (k : κ) (f : Option ν → ν) : List (κ × ν) → List (κ × ν)
  | [] => [(k, f none)]
  | (k', v) :: rest =>
    if k' = k then (k', f (some v)) :: rest else (k', v) :: alterEntries k f rest

theorem mem_map_fst_alterEntries {k x : κ} {f : Option ν → ν} {es : List (κ × ν)} :
    x ∈ (alterEntries k f es).map Prod.fst ↔ x ∈ es.map Prod.fst ∨ x = k := by
  induction es with
  | nil => simp [alterEntries]
  | cons e es ih =>
    obtain ⟨k', v⟩ := e
    simp only [alterEntries]
    split
    · next h =>
      simp only [List.map_cons, List.mem_cons]
      constructor
      · exact .inl
      · rintro (h' | rfl)
        · exact h'
        · exact .inl h.symm
    · simp only [List.map_cons, List.mem_cons, ih, or_assoc]

theorem nodup_alterEntries {k : κ} {f : Option ν → ν} {es : List (κ × ν)}
    (h : (es.map Prod.fst).Nodup) : ((alterEntries k f es).map Prod.fst).Nodup := by
  induction es with
  | nil => simp [alterEntries]
  | cons e es ih =>
    obtain ⟨k', v⟩ := e
    simp only [List.map_cons, List.nodup_cons] at h
    simp only [alterEntries]
    split
    · simpa using h
    · next hk =>
      simp only [List.map_cons, List.nodup_cons]
      refine ⟨?_, ih h.2⟩
      rw [mem_map_fst_alterEntries]
      rintro (hm | rfl)
      · exact h.1 hm
      · exact hk rfl

/-- Change the value of `k`, or give it one. -/
def alter (m : OrderedMap κ ν) (k : κ) (f : Option ν → ν) : OrderedMap κ ν :=
  ⟨alterEntries k f m.entries, nodup_alterEntries m.nodup⟩

/-- Set the value of `k`; a key that is already there keeps its place. -/
def insert (m : OrderedMap κ ν) (k : κ) (v : ν) : OrderedMap κ ν := m.alter k fun _ => v

/-- Take a key and its value out. -/
def erase (m : OrderedMap κ ν) (k : κ) : OrderedMap κ ν :=
  ⟨m.entries.filter fun e => e.1 ≠ k, nodup_filter m.nodup⟩

/-- The map of a list of pairs, later values replacing earlier ones. -/
def ofList (es : List (κ × ν)) : OrderedMap κ ν := es.foldl (fun m e => m.insert e.1 e.2) empty

end OrderedMap

end MiniProgram
