/-
What looking into a component finds. An inspection either stops at a missing file or reads the
metadata and the markup and examines them (`inspect_cases`). Of an examined component, the
definitions are the aliases that resolve, an element name is undefined exactly when it is neither in
the vocabulary nor defined, and a definition is unused exactly when no element of that name refers
to it.
-/
import MiniProgram.Inspection
import MiniProgram.Proofs.Markup.Walk
import MiniProgram.Proofs.OrderedMap

namespace MiniProgram

open Markup

theorem bind_eq_ok_iff {ε α β : Type} {x : Except ε α} {f : α → Except ε β} {b : β} :
    x >>= f = .ok b ↔ ∃ a, x = .ok a ∧ f a = .ok b := by
  cases x <;> simp [bind, Except.bind]

/-! ## Aliases -/

namespace Project

variable {project : Project} {p q : LogicalPath} {aliases : Manifest.Aliases} {name : String}

/-- The definitions are the aliases that lead somewhere, with where they lead. -/
theorem find?_definitions : (project.definitions p aliases).find? name = some q ↔
    ∃ target, (name, target) ∈ aliases.entries ∧ project.resolveAlias? p target = some q := by
  rw [OrderedMap.find?_eq_some_iff]
  unfold definitions OrderedMap.filterMap
  simp only [List.mem_filterMap, Option.map_eq_some_iff, Prod.mk.injEq]
  constructor
  · rintro ⟨⟨name', target⟩, he, q', hq, rfl, rfl⟩
    exact ⟨target, he, hq⟩
  · rintro ⟨target, he, hq⟩
    exact ⟨(name, target), he, q, hq, rfl, rfl⟩

theorem mem_keys_definitions : name ∈ (project.definitions p aliases).keys ↔
    ∃ target, (name, target) ∈ aliases.entries ∧ (project.resolveAlias? p target).isSome = true := by
  constructor
  · intro h
    obtain ⟨⟨name', q⟩, he, rfl⟩ := List.mem_map.1 h
    obtain ⟨target, ht, hq⟩ := find?_definitions.1 (OrderedMap.find?_eq_some_iff.2 he)
    exact ⟨target, ht, by rw [hq]; rfl⟩
  · rintro ⟨target, ht, hs⟩
    obtain ⟨q, hq⟩ := Option.isSome_iff_exists.1 hs
    exact OrderedMap.mem_keys_of_find? (find?_definitions.2 ⟨target, ht, hq⟩)

/-- Where every alias leads somewhere, every alias is defined. -/
theorem mem_keys_definitions_of_resolved
    (h : ∀ e ∈ aliases.entries, (project.resolveAlias? p e.2).isSome = true) :
    name ∈ (project.definitions p aliases).keys ↔ name ∈ aliases.keys := by
  rw [mem_keys_definitions]
  constructor
  · rintro ⟨target, ht, -⟩
    exact OrderedMap.mem_keys_of_mem_entries ht
  · intro hn
    obtain ⟨⟨name', target⟩, he, rfl⟩ := List.mem_map.1 hn
    have hs := h (name', target) he
    exact ⟨target, he, hs⟩

theorem unresolved_eq_nil_iff {metadata : SourceFile} : project.unresolved p metadata aliases = [] ↔
    ∀ e ∈ aliases.entries, (project.resolveAlias? p e.2).isSome = true := by
  unfold unresolved
  rw [List.filterMap_eq_nil_iff]
  refine forall₂_congr fun e _ => ?_
  rw [Option.isSome_iff_ne_none]
  simp

end Project

/-! ## Element names -/

section Names

variable {v : Vocabulary} {definitions : OrderedMap String LogicalPath} {name : String}

theorem isSome_target?_iff :
    (v.target? definitions name).isSome = true ↔ v.contains name = true ∨ name ∈ definitions.keys := by
  unfold Vocabulary.target?
  split
  · rename_i hv; simp [hv]
  · rename_i hv
    rw [Option.isSome_map, Option.isSome_iff_exists]
    constructor
    · rintro ⟨q, hq⟩
      exact .inr (OrderedMap.mem_keys_of_find? hq)
    · rintro (h | h)
      · exact absurd h hv
      · obtain ⟨⟨name', q⟩, he, rfl⟩ := List.mem_map.1 h
        exact ⟨q, OrderedMap.find?_eq_some_iff.2 he⟩

theorem target?_isBuiltin {target : Target} (h : v.target? definitions name = some target) :
    target.isBuiltin = v.contains name := by
  unfold Vocabulary.target? at h
  split at h
  · rename_i hv; cases h; exact hv.symm
  · rename_i hv
    obtain ⟨q, -, rfl⟩ := Option.map_eq_some_iff.1 h
    simpa [Target.isBuiltin] using hv

/-- The names of a document that refer to nothing. -/
theorem filter_undefined_eq_nil_iff {d : Document} :
    (d.distinctTags.filter fun t => (v.target? definitions t.name.value).isNone) = [] ↔
      ∀ name, d.HasElement name → v.contains name = true ∨ name ∈ definitions.keys := by
  rw [List.filter_eq_nil_iff]
  constructor
  · intro h name hn
    obtain ⟨t, ht, rfl⟩ := Document.exists_mem_distinctTags.2 hn
    rw [← isSome_target?_iff, Option.isSome_iff_ne_none]
    simpa using h t ht
  · intro h t ht
    have hs := isSome_target?_iff.2 (h _ (Document.exists_mem_distinctTags.1 ⟨t, ht, rfl⟩))
    rw [Option.isNone_iff_eq_none]
    exact Option.isSome_iff_ne_none.1 hs

/-- A definition is in use when an element of its name is not in the vocabulary. -/
theorem mem_unusedAliases {d : Document} {markup : SourceFile} :
    name ∈ unusedAliases definitions (d.distinctTags.filterMap (dependency? v definitions markup)) ↔
      name ∈ definitions.keys ∧ ¬ (d.HasElement name ∧ v.contains name = false) := by
  unfold unusedAliases
  rw [List.mem_filter]
  refine and_congr_right fun hn => ?_
  rw [Bool.not_eq_true', ← Bool.not_eq_true]
  refine not_congr ?_
  simp only [List.any_eq_true, List.mem_filterMap, Bool.and_eq_true, beq_iff_eq, Bool.not_eq_true']
  constructor
  · rintro ⟨dep, ⟨t, ht, hdep⟩, rfl, hb⟩
    obtain ⟨target, htarget, rfl⟩ := Option.map_eq_some_iff.1 hdep
    exact ⟨Document.exists_mem_distinctTags.1 ⟨t, ht, rfl⟩, by rw [← target?_isBuiltin htarget]; exact hb⟩
  · rintro ⟨he, hv⟩
    obtain ⟨t, ht, rfl⟩ := Document.exists_mem_distinctTags.2 he
    obtain ⟨target, htarget⟩ := Option.isSome_iff_exists.1 (isSome_target?_iff.2 (.inr hn))
    refine ⟨_, ⟨t, ht, by rw [dependency?, htarget]; rfl⟩, rfl, ?_⟩
    rw [target?_isBuiltin htarget]; exact hv

end Names

/-! ## Inspections -/

namespace Project

variable {project : Project} {p : LogicalPath}

/-- All four files of a component are there. -/
def Complete (project : Project) (p : LogicalPath) : Prop :=
  ∀ ext ∈ project.layout.extensions.all, project.isFile p ext = true

theorem missing?_eq_none_iff : project.missing? p = none ↔ project.Complete p := by
  unfold missing? Complete
  rw [List.find?_eq_none]
  simp

/-- An inspection stops at the first file that is missing, or reads the two files it needs. -/
theorem inspect_cases {found : Inspection} (h : project.inspect p = .ok found) :
    (∃ ext, project.missing? p = some ext ∧ found = ⟨.empty p, [project.missingRecord p ext]⟩) ∨
    (∃ metadata aliases markup, project.missing? p = none ∧
      project.readFile p project.layout.extensions.metadata = .ok metadata ∧
      Manifest.aliases (project.file p project.layout.extensions.metadata) metadata.text = .ok aliases ∧
      project.readFile p project.layout.extensions.markup = .ok markup ∧
      found = project.examine p metadata markup aliases) := by
  unfold inspect at h
  split at h
  · rename_i ext hm
    cases h
    exact .inl ⟨ext, hm, rfl⟩
  · rename_i hm
    obtain ⟨metadata, hmeta, h⟩ := bind_eq_ok_iff.1 h
    obtain ⟨aliases, haliases, h⟩ := bind_eq_ok_iff.1 h
    obtain ⟨markup, hmarkup, h⟩ := bind_eq_ok_iff.1 h
    cases h
    exact .inr ⟨metadata, aliases, markup, hm, hmeta, haliases, hmarkup, rfl⟩

/-- A component is known under the path that was looked into. -/
theorem path_of_inspect {found : Inspection} (h : project.inspect p = .ok found) :
    found.component.path = p := by
  rcases inspect_cases h with ⟨_, -, rfl⟩ | ⟨_, _, _, -, -, -, -, rfl⟩ <;> rfl

end Project

end MiniProgram
