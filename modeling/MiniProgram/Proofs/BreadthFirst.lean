/-
The order and the extent of a search. The components that a search finds are the least set of paths
that holds the entries and, with each path, what the component stored for it uses; they are found
each once, in the one breadth-first order of the entries (`BreadthFirst`).
-/
import Mathlib.Data.List.Basic
import Mathlib.Data.List.Induction
import Mathlib.Order.Bounds.Basic
import MiniProgram.Proofs.Inspection
import MiniProgram.Proofs.Search

namespace MiniProgram

/-! ## Breadth-first orders -/

/-- `order` lists the entries and then, path after path, the targets of what it lists, each where it
first comes up; and nothing is in it but for an entry or for a path before it. -/
structure BreadthFirst (entries : List LogicalPath) (targets : LogicalPath → List LogicalPath)
    (order : List LogicalPath) : Prop where
  eq : order = (entries ++ order.flatMap targets).eraseDups
  grounded : ∀ before p after, order = before ++ p :: after → p ∈ entries ∨ ∃ q ∈ before, p ∈ targets q

theorem eraseDups_eq_unseen (ps : List LogicalPath) : ps.eraseDups = unseen [] ps := by
  rw [unseen_eq_eraseDups, List.filter_eq_self.2 (by simp)]

namespace BreadthFirst

variable {entries : List LogicalPath} {targets : LogicalPath → List LogicalPath}
  {order order' start : List LogicalPath}

theorem nodup (h : BreadthFirst entries targets order) : order.Nodup := by
  rw [h.eq, eraseDups_eq_unseen]; exact nodup_unseen _ _

/-- What the first paths of an order lead to stands at the start of the order. -/
theorem eraseDups_prefix (h : BreadthFirst entries targets order) (hs : start <+: order) :
    (entries ++ start.flatMap targets).eraseDups <+: order := by
  obtain ⟨rest, rfl⟩ := hs
  have heq := h.eq
  rw [List.flatMap_append, ← List.append_assoc, List.eraseDups_append] at heq
  exact ⟨_, heq.symm⟩

/-- Two orders start alike as far as the first of them goes. -/
theorem prefix_of_prefix (h : BreadthFirst entries targets order)
    (h' : BreadthFirst entries targets order') (hs : start <+: order) : start <+: order' := by
  induction start using List.reverseRecOn with
  | nil => exact List.nil_prefix
  | append_singleton start p ih =>
    have hstart : start <+: order := (List.prefix_append start [p]).trans hs
    -- what `start` leads to is a start of both orders, and it holds `p`, so it goes beyond `start`
    have hnext := h.eraseDups_prefix hstart
    have hp : p ∈ (entries ++ start.flatMap targets).eraseDups := by
      obtain ⟨rest, rfl⟩ := hs
      rw [List.mem_eraseDups, List.mem_append, List.mem_flatMap]
      exact h.grounded start p rest (by simp)
    have hlong : start ++ [p] <+: (entries ++ start.flatMap targets).eraseDups := by
      rcases List.prefix_or_prefix_of_prefix hs hnext with hle | hle
      · exact hle
      · rcases List.prefix_concat_iff.1 hle with heq | hle
        · exact heq ▸ List.prefix_refl _
        · have hnd : (start ++ [p]).Nodup := h.nodup.sublist hs.sublist
          exact absurd rfl ((List.nodup_append.1 hnd).2.2 p (hle.subset hp) p (List.mem_singleton_self _))
    exact hlong.trans (h'.eraseDups_prefix (ih hstart))

/-- There is one breadth-first order only. -/
theorem unique (h : BreadthFirst entries targets order) (h' : BreadthFirst entries targets order') :
    order = order' :=
  (h.prefix_of_prefix h' (List.prefix_refl _)).eq_of_length_le
    (h'.prefix_of_prefix h (List.prefix_refl _)).length_le

end BreadthFirst

/-! ## Searches -/

namespace ComponentMap

/-- What the component stored for a path uses. -/
def targetsOf (components : ComponentMap) (p : LogicalPath) : List LogicalPath :=
  ((components.find? p).map Component.targets).getD []

/-- Holds the entries and, with each path, what the component stored for it uses. -/
def Closed (components : ComponentMap) (entries : List LogicalPath) (S : Set LogicalPath) : Prop :=
  (∀ p ∈ entries, p ∈ S) ∧ ∀ p ∈ S, ∀ c, components.find? p = some c → ∀ q ∈ c.targets, q ∈ S

end ComponentMap

namespace Searched

variable {project : Project} {entries seen : List LogicalPath} {done : Resolution} {trail : Trail}

theorem find?_eq_some_iff {queue : List LogicalPath} {p : LogicalPath} {c : Component}
    (h : Searched project entries queue seen done trail) :
    done.components.find? p = some c ↔ ∃ found, (p, found) ∈ trail ∧ found.component = c := by
  rw [OrderedMap.find?_eq_some_iff, h.components, List.mem_map]
  constructor
  · rintro ⟨⟨p', found⟩, he, heq⟩
    cases heq
    exact ⟨found, he, rfl⟩
  · rintro ⟨found, he, rfl⟩
    exact ⟨(p, found), he, rfl⟩

theorem flatMap_targetsOf {queue : List LogicalPath}
    (h : Searched project entries queue seen done trail) :
    done.components.keys.flatMap done.components.targetsOf = trail.targets := by
  rw [h.keys_eq, Trail.paths, Trail.targets, List.flatMap_map]
  refine List.flatMap_congr fun e he => ?_
  unfold ComponentMap.targetsOf
  rw [(h.find?_eq_some_iff (c := e.2.component)).2 ⟨e.2, he, rfl⟩]
  rfl

theorem mem_keys_iff_reaches (h : Searched project entries [] seen done trail) (p : LogicalPath) :
    p ∈ done.components.keys ↔ project.Reaches entries p := by
  rw [h.keys_eq]
  constructor
  · intro hp
    exact h.reaches p (List.mem_append_left _ hp)
  · intro hr
    have hmem : ∀ q, q ∈ entries ∨ q ∈ trail.targets → q ∈ trail.paths := by
      intro q hq
      have hq' : q ∈ trail.paths ++ [] := by
        rw [h.order, mem_unseen, List.mem_append]
        exact ⟨hq, List.not_mem_nil⟩
      simpa using hq'
    induction hr with
    | entry hp => exact hmem _ (.inl hp)
    | target _ hi hq ih =>
      obtain ⟨e, he, rfl⟩ := List.mem_map.1 ih
      rw [h.inspected e he] at hi
      cases hi
      exact hmem _ (.inr (Trail.mem_targets.2 ⟨e, he, hq⟩))

theorem breadthFirst (h : Searched project entries [] seen done trail) :
    BreadthFirst entries done.components.targetsOf done.components.keys where
  eq := by
    rw [h.flatMap_targetsOf, eraseDups_eq_unseen, ← h.order, h.keys_eq, List.append_nil]
  grounded before p after heq := by
    rw [h.keys_eq] at heq
    rcases h.grounded before p after (by rw [List.append_nil]; exact heq) with hp | ⟨e, he, hb, ht⟩
    · exact .inl hp
    · refine .inr ⟨e.1, hb, ?_⟩
      unfold ComponentMap.targetsOf
      rw [(h.find?_eq_some_iff (c := e.2.component)).2 ⟨e.2, he, rfl⟩]
      exact ht

theorem isLeast_keys (h : Searched project entries [] seen done trail) :
    IsLeast {S | done.components.Closed entries S} {p | p ∈ done.components.keys} := by
  refine ⟨⟨fun p hp => (h.mem_keys_iff_reaches p).2 (.entry hp), fun p hp c hc q hq => ?_⟩, fun S hS p hp => ?_⟩
  · obtain ⟨found, he, rfl⟩ := h.find?_eq_some_iff.1 hc
    exact (h.mem_keys_iff_reaches q).2 (.target ((h.mem_keys_iff_reaches p).1 hp) (h.inspect_eq he) hq)
  · have hr := (h.mem_keys_iff_reaches p).1 hp
    clear hp
    induction hr with
    | entry hp => exact hS.1 _ hp
    | @target p q found hp hi hq ih =>
      obtain ⟨e, he, rfl⟩ := List.mem_map.1 (h.keys_eq ▸ (h.mem_keys_iff_reaches p).2 hp)
      rw [h.inspected e he] at hi
      cases hi
      exact hS.2 e.1 ih _ (h.find?_eq_some_iff.2 ⟨e.2, he, rfl⟩) q hq

end Searched

/-- A search that comes to a result finds the least set of components that holds the entries and is
closed under use, each component once and under its own path, in breadth-first order. -/
theorem resolve_breadth_first {project : Project} {entries : List LogicalPath} {result : Resolution}
    (h : project.resolve entries = .ok result) :
    IsLeast {S | result.components.Closed entries S} {p | p ∈ result.components.keys} ∧
    result.components.keys.Nodup ∧
    (∀ p c, (p, c) ∈ result.components.entries → c.path = p) ∧
    ∀ order, BreadthFirst entries result.components.targetsOf order ↔ order = result.components.keys := by
  obtain ⟨seen, trail, hs⟩ := Project.resolve_searched h
  refine ⟨hs.isLeast_keys, hs.breadthFirst.nodup, fun p c hc => ?_, fun order => ?_⟩
  · obtain ⟨found, he, rfl⟩ := hs.find?_eq_some_iff.1 (OrderedMap.find?_eq_some_iff.2 hc)
    exact Project.path_of_inspect (hs.inspect_eq he)
  · constructor
    · intro ho
      exact ho.unique hs.breadthFirst
    · rintro rfl
      exact hs.breadthFirst

/-- Two components that use each other, one of them also itself, from an entry given twice. -/
theorem resolve_breadth_first_mutual :
    let project : Project := ⟨mutualFiles, ⟨["p"]⟩, {}, ⟨[]⟩⟩
    let a := topLevel "a" ⟨by decide, by decide, by decide, by decide⟩
    let b := topLevel "b" ⟨by decide, by decide, by decide, by decide⟩
    ∃ result, project.resolve [a, a] = .ok result ∧ result.components.keys = [a, b] ∧
      IsLeast {S | result.components.Closed [a, a] S} {p | p ∈ [a, b]} ∧
      BreadthFirst [a, a] result.components.targetsOf [a, b] := by
  intro project a b
  obtain ⟨result, hresult, hkeys⟩ : ∃ result, project.resolve [a, a] = .ok result ∧
      result.components.keys = [a, b] :=
    Project.exists_resolve_of_within (n := 2) (by decide +kernel)
  have h := resolve_breadth_first hresult
  rw [hkeys] at h
  exact ⟨result, hresult, hkeys, h.1, (h.2.2.2 [a, b]).2 rfl⟩

end MiniProgram
