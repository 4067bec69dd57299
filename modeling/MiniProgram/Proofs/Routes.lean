/-
Routes through the components, and the places of a hierarchy. A route starts at an entry, takes one
target of each component that it passes, and ends anywhere. The places below an entry are the routes
from it that pass no component twice: the places of the tree, parents first, and these routes in the
order of their choices are one and the same list (`preorder_tree`). So a place is recursive exactly when
its route stops at a component that it has passed, and no place lies deeper than there are components.
-/
import Mathlib.Data.List.Perm.Subperm
import MiniProgram.Hierarchy
import MiniProgram.Proofs.BreadthFirst

namespace MiniProgram

/-! ## Routes -/

/-- A way down from a component to where it stops. -/
structure Route where
  /-- Which of the targets was taken at each component passed. -/
  choices : List Nat
  /-- The components passed, the first one first, without the one where the route stops. -/
  passed : List LogicalPath
  stop : LogicalPath
deriving DecidableEq

namespace Route

/-- The route that stops where it starts. -/
def stay (p : LogicalPath) : Route := ⟨[], [], p⟩

/-- From `p` take its target number `i` and go on along `r`. -/
def via (i : Nat) (p : LogicalPath) (r : Route) : Route := ⟨i :: r.choices, p :: r.passed, r.stop⟩

@[simp] theorem stay_choices (p : LogicalPath) : (stay p).choices = [] := rfl
@[simp] theorem stay_passed (p : LogicalPath) : (stay p).passed = [] := rfl
@[simp] theorem stay_stop (p : LogicalPath) : (stay p).stop = p := rfl
@[simp] theorem via_choices (i : Nat) (p : LogicalPath) (r : Route) : (via i p r).choices = i :: r.choices := rfl
@[simp] theorem via_passed (i : Nat) (p : LogicalPath) (r : Route) : (via i p r).passed = p :: r.passed := rfl
@[simp] theorem via_stop (i : Nat) (p : LogicalPath) (r : Route) : (via i p r).stop = r.stop := rfl

end Route

namespace ComponentMap

/-- The routes that start at a component. Only a known component can be passed, and the next step goes
to one of its targets. -/
inductive Leads (components : ComponentMap) : LogicalPath → Route → Prop
  | stay (p : LogicalPath) : Leads components p (.stay p)
  | via {p q : LogicalPath} {c : Component} {i : Nat} {r : Route} : components.find? p = some c →
      c.targets[i]? = some q → Leads components q r → Leads components p (.via i p r)

variable {components : ComponentMap} {p : LogicalPath} {r : Route}

theorem Leads.passed_subset (h : components.Leads p r) : r.passed ⊆ components.keys := by
  induction h with
  | stay => exact List.nil_subset _
  | via hfind _ _ ih => exact List.cons_subset.2 ⟨OrderedMap.mem_keys_of_find? hfind, ih⟩

/-- A route without repetition is no longer than there are components. -/
theorem Leads.length_passed_le (h : components.Leads p r) (hnd : r.passed.Nodup) :
    r.passed.length ≤ components.size := by
  have hle : r.passed.length ≤ components.keys.length := (hnd.subperm h.passed_subset).length_le
  rwa [OrderedMap.keys, List.length_map] at hle

end ComponentMap

/-! ## The tree, place by place -/

theorem Hierarchy.preorderAll_eq_flatMap : ∀ ts : List Hierarchy, preorderAll ts = ts.flatMap preorder
  | [] => rfl
  | t :: ts => by rw [preorderAll, preorderAll_eq_flatMap ts, List.flatMap_cons]

/-- Things are numbered in order. -/
theorem pairwise_zipIdx {α : Type} (l : List α) : l.zipIdx.Pairwise fun a b => a.2 < b.2 := by
  rw [← List.pairwise_map (f := Prod.snd) (R := (· < ·)), List.zipIdx_map_snd]
  exact List.pairwise_lt_range' 1

namespace Outline

variable {o : Outline}

/-- The components that are shown right below `p` where it is reached through `ancestors`. -/
def opened (o : Outline) (p : LogicalPath) (ancestors : List LogicalPath) : List LogicalPath :=
  if p ∈ ancestors then [] else o.components.targetsOf p

/-- The colour that reaches what lies below `p`. -/
def shade (o : Outline) (inherited : Option Color) (p : LogicalPath) : Option Color :=
  if o.isHighlighted p then none else inherited

/-- A tree is its place and the trees of the components that are shown below it. -/
theorem tree_eq (o : Outline) (p : LogicalPath) (depth page : Nat) (inherited : Option Color)
    (ancestors : List LogicalPath) :
    o.tree p depth page inherited ancestors =
      .node (o.placement p depth page (o.shade inherited p) (decide (p ∈ ancestors)))
        ((o.opened p ancestors).map fun q =>
          o.tree q (depth + 1) page (o.shade inherited p) (p :: ancestors)) := by
  rw [tree]
  unfold opened ComponentMap.targetsOf shade
  split
  · rename_i hp
    simp [hp]
  · rename_i hp
    split
    · rename_i hfind
      simp [hp, hfind]
    · rename_i c hfind
      simp [hp, hfind]

theorem getElem?_opened {p q : LogicalPath} {ancestors : List LogicalPath} {i : Nat} :
    (o.opened p ancestors)[i]? = some q ↔
      p ∉ ancestors ∧ ∃ c, o.components.find? p = some c ∧ c.targets[i]? = some q := by
  unfold opened ComponentMap.targetsOf
  by_cases hp : p ∈ ancestors
  · simp [hp]
  · cases hfind : o.components.find? p with
    | none => simp [hp]
    | some c => simp [hp]

/-- What is shown below a component has one component fewer to open. -/
theorem unopened_lt {p q : LogicalPath} {ancestors : List LogicalPath} (h : q ∈ o.opened p ancestors) :
    o.unopened (p :: ancestors) < o.unopened ancestors := by
  obtain ⟨i, hi⟩ := List.mem_iff_getElem?.1 h
  obtain ⟨hp, c, hfind, -⟩ := getElem?_opened.1 hi
  exact unopened_cons_lt (OrderedMap.mem_keys_of_find? hfind) hp

/-- What passes to a place from the places right below it holds everywhere. -/
theorem opened_induction {motive : LogicalPath → List LogicalPath → Prop}
    (step : ∀ p ancestors, (∀ q ∈ o.opened p ancestors, motive q (p :: ancestors)) → motive p ancestors)
    (p : LogicalPath) (ancestors : List LogicalPath) : motive p ancestors :=
  step p ancestors fun q hq =>
    have : o.unopened (p :: ancestors) < o.unopened ancestors := unopened_lt hq
    opened_induction step q (p :: ancestors)
termination_by o.unopened ancestors

/-! ## All routes in order -/

/-- The routes from `p` that pass no component twice and none of `ancestors`, in the order of their
choices. -/
def routes (o : Outline) (p : LogicalPath) (ancestors : List LogicalPath) : List Route :=
  .stay p :: (o.opened p ancestors).zipIdx.attach.flatMap fun e =>
    (o.routes e.1.1 (p :: ancestors)).map (.via e.1.2 p)
termination_by o.unopened ancestors
decreasing_by exact unopened_lt (List.fst_mem_of_mem_zipIdx e.2)

theorem routes_eq (o : Outline) (p : LogicalPath) (ancestors : List LogicalPath) :
    o.routes p ancestors = .stay p :: (o.opened p ancestors).zipIdx.flatMap fun e =>
      (o.routes e.1 (p :: ancestors)).map (.via e.2 p) := by
  rw [routes, List.flatMap_subtype (g := fun e => (o.routes e.1 (p :: ancestors)).map (.via e.2 p))
    fun _ _ => rfl, List.unattach_attach]

/-- The routes are all that there are. -/
theorem mem_routes {p : LogicalPath} {ancestors : List LogicalPath} : ∀ {r : Route},
    r ∈ o.routes p ancestors ↔
      o.components.Leads p r ∧ r.passed.Nodup ∧ ∀ q ∈ r.passed, q ∉ ancestors := by
  induction p, ancestors using opened_induction (o := o) with
  | step p ancestors ih =>
    intro r
    rw [routes_eq, List.mem_cons, List.mem_flatMap]
    constructor
    · rintro (rfl | ⟨⟨q, i⟩, hq, hr⟩)
      · exact ⟨.stay p, List.nodup_nil, List.forall_mem_nil _⟩
      · obtain ⟨s, hs, rfl⟩ := List.mem_map.1 hr
        obtain ⟨hleads, hnd, hout⟩ := (ih q (List.fst_mem_of_mem_zipIdx hq)).1 hs
        obtain ⟨hp, c, hfind, htarget⟩ := getElem?_opened.1 (List.mk_mem_zipIdx_iff_getElem?.1 hq)
        refine ⟨.via hfind htarget hleads, ?_, ?_⟩
        · exact List.nodup_cons.2 ⟨fun hmem => hout p hmem (List.mem_cons_self ..), hnd⟩
        · refine List.forall_mem_cons.2 ⟨hp, fun x hx hmem => ?_⟩
          exact hout x hx (List.mem_cons_of_mem _ hmem)
    · rintro ⟨hleads, hnd, hout⟩
      cases hleads with
      | stay => exact .inl rfl
      | @via _ q c i r hfind htarget hleads =>
        rw [Route.via_passed, List.nodup_cons] at hnd
        rw [Route.via_passed, List.forall_mem_cons] at hout
        have hi : (o.opened p ancestors)[i]? = some q := getElem?_opened.2 ⟨hout.1, c, hfind, htarget⟩
        refine .inr ⟨(q, i), List.mk_mem_zipIdx_iff_getElem?.2 hi, List.mem_map.2 ⟨r, ?_, rfl⟩⟩
        refine (ih q (List.mem_of_getElem? hi)).2 ⟨hleads, hnd.2, fun x hx hmem => ?_⟩
        rcases List.mem_cons.1 hmem with rfl | hmem
        · exact hnd.1 hx
        · exact hout.2 x hx hmem

/-- A route comes before the routes that go on from it, and these come in the order of the choices. -/
theorem pairwise_routes (p : LogicalPath) (ancestors : List LogicalPath) :
    (o.routes p ancestors).Pairwise fun r s => r.choices < s.choices := by
  induction p, ancestors using opened_induction (o := o) with
  | step p ancestors ih =>
    rw [routes_eq, List.pairwise_cons, List.pairwise_flatMap]
    refine ⟨fun r hr => ?_, fun e he => ?_, ?_⟩
    · obtain ⟨e, -, hr⟩ := List.mem_flatMap.1 hr
      obtain ⟨r, -, rfl⟩ := List.mem_map.1 hr
      exact List.nil_lt_cons ..
    · rw [List.pairwise_map]
      refine (ih e.1 (List.fst_mem_of_mem_zipIdx he)).imp fun hlt => ?_
      exact List.cons_lt_cons_iff.2 (.inr ⟨rfl, hlt⟩)
    · refine (pairwise_zipIdx _).imp fun hlt r hr s hs => ?_
      obtain ⟨r, -, rfl⟩ := List.mem_map.1 hr
      obtain ⟨s, -, rfl⟩ := List.mem_map.1 hs
      exact List.cons_lt_cons_iff.2 (.inl hlt)

/-! ## Places -/

/-- The tree that stands where a route stops. -/
def subtree (o : Outline) (depth page : Nat) (inherited : Option Color) (ancestors : List LogicalPath)
    (r : Route) : Hierarchy :=
  o.tree r.stop (depth + r.passed.length) page (r.passed.foldl o.shade inherited) (r.passed.reverse ++ ancestors)

theorem subtree_via (o : Outline) (depth page : Nat) (inherited : Option Color) (ancestors : List LogicalPath)
    (i : Nat) (p : LogicalPath) (r : Route) :
    o.subtree depth page inherited ancestors (.via i p r) =
      o.subtree (depth + 1) page (o.shade inherited p) (p :: ancestors) r := by
  simp only [subtree, Route.via_passed, Route.via_stop, List.length_cons, List.foldl_cons, List.reverse_cons,
    List.append_assoc, List.singleton_append]
  rw [Nat.add_right_comm, Nat.add_assoc]

/-- The places of a tree, parents first, are where its routes stop. -/
theorem preorder_tree (p : LogicalPath) (ancestors : List LogicalPath) (depth page : Nat)
    (inherited : Option Color) :
    (o.tree p depth page inherited ancestors).preorder =
      (o.routes p ancestors).map (o.subtree depth page inherited ancestors) := by
  induction p, ancestors using opened_induction (o := o) generalizing depth inherited with
  | step p ancestors ih =>
    have hbelow : Hierarchy.preorderAll ((o.opened p ancestors).map fun q =>
          o.tree q (depth + 1) page (o.shade inherited p) (p :: ancestors)) =
        ((o.opened p ancestors).zipIdx.flatMap fun e =>
          (o.routes e.1 (p :: ancestors)).map (.via e.2 p)).map (o.subtree depth page inherited ancestors) := by
      rw [Hierarchy.preorderAll_eq_flatMap, List.flatMap_map, List.map_flatMap]
      conv_lhs => rw [← List.zipIdx_map_fst 0 (o.opened p ancestors), List.flatMap_map]
      refine List.flatMap_congr fun e he => ?_
      rw [ih e.1 (List.fst_mem_of_mem_zipIdx he), List.map_map]
      exact List.map_congr_left fun r _ => (subtree_via ..).symm
    have hhere : o.subtree depth page inherited ancestors (.stay p) =
        o.tree p depth page inherited ancestors := rfl
    rw [routes_eq, List.map_cons, ← hbelow, hhere, tree_eq, Hierarchy.preorder]

/-- What stands at the end of a route from an entry page. -/
structure Places (o : Outline) (page : Nat) (r : Route) (t : Hierarchy) : Prop where
  path : t.placement.path = some r.stop
  depth : t.placement.depth = r.passed.length + 1
  page : t.placement.page = some page
  recursive : t.placement.recursive = true ↔ r.stop ∈ r.passed
  leaf : r.stop ∈ r.passed ∨ r.stop ∉ o.components.keys → t.children = []

theorem opened_eq_nil {p : LogicalPath} {ancestors : List LogicalPath}
    (h : p ∈ ancestors ∨ p ∉ o.components.keys) : o.opened p ancestors = [] := by
  refine List.eq_nil_iff_forall_not_mem.2 fun q hq => ?_
  obtain ⟨i, hi⟩ := List.mem_iff_getElem?.1 hq
  obtain ⟨hp, c, hfind, -⟩ := getElem?_opened.1 hi
  rcases h with h | h
  · exact hp h
  · exact h (OrderedMap.mem_keys_of_find? hfind)

theorem places_subtree (o : Outline) (page : Nat) (inherited : Option Color) (r : Route) :
    o.Places page r (o.subtree 1 page inherited [] r) := by
  unfold subtree
  rw [tree_eq, List.append_nil]
  refine ⟨rfl, Nat.add_comm .., rfl, ?_, fun h => ?_⟩
  · simp [Hierarchy.placement, placement]
  · rw [← List.mem_reverse] at h
    rw [opened_eq_nil h]
    rfl

theorem mem_routes_nil {p : LogicalPath} {r : Route} :
    r ∈ o.routes p [] ↔ o.components.Leads p r ∧ r.passed.Nodup := by
  rw [mem_routes, and_iff_left fun _ _ => List.not_mem_nil]

theorem children_hierarchy (o : Outline) (rootName : String) (entries : List LogicalPath) :
    (o.hierarchy rootName entries).children =
      entries.zipIdx.map fun e => o.tree e.1 1 e.2 (o.pageColor e.2) [] :=
  List.mapIdx_eq_zipIdx_map

/-- The trees below the root are those at the ends of the routes from the entries. -/
theorem mem_preorderAll_hierarchy {rootName : String} {entries : List LogicalPath} {t : Hierarchy} :
    t ∈ Hierarchy.preorderAll (o.hierarchy rootName entries).children ↔
      ∃ page p r, entries[page]? = some p ∧ o.components.Leads p r ∧ r.passed.Nodup ∧
        t = o.subtree 1 page (o.pageColor page) [] r := by
  rw [children_hierarchy, Hierarchy.preorderAll_eq_flatMap, List.flatMap_map, List.mem_flatMap]
  simp only [preorder_tree, List.mem_map, mem_routes_nil, List.mem_zipIdx_iff_getElem?, Prod.exists]
  constructor
  · rintro ⟨p, page, hp, r, ⟨hleads, hnd⟩, rfl⟩
    exact ⟨page, p, r, hp, hleads, hnd, rfl⟩
  · rintro ⟨page, p, r, hp, hleads, hnd, rfl⟩
    exact ⟨p, page, hp, r, ⟨hleads, hnd⟩, rfl⟩

/-- The hierarchy has one tree for each entry, in order. In the tree of an entry the places, parents
first, are where the routes from the entry stop that pass no component twice, in the order of the
choices along them. A place that its own component already contains, or whose component is not known,
has nothing below it. No place lies deeper than the number of components and one. -/
theorem hierarchy_routes (o : Outline) (rootName : String) (entries : List LogicalPath) :
    List.Forall₂ (fun (e : LogicalPath × Nat) (t : Hierarchy) => ∃ routes : List Route,
        (∀ r, r ∈ routes ↔ o.components.Leads e.1 r ∧ r.passed.Nodup) ∧
        routes.Pairwise (fun r s => r.choices < s.choices) ∧
        List.Forall₂ (o.Places e.2) routes t.preorder)
      entries.zipIdx (o.hierarchy rootName entries).children ∧
    ∀ t ∈ (o.hierarchy rootName entries).preorder, t.placement.depth ≤ o.components.size + 1 := by
  constructor
  · rw [children_hierarchy, List.forall₂_map_right_iff, List.forall₂_same]
    intro e _
    refine ⟨o.routes e.1 [], fun r => mem_routes_nil, pairwise_routes e.1 [], ?_⟩
    rw [preorder_tree, List.forall₂_map_right_iff, List.forall₂_same]
    exact fun r _ => places_subtree o e.2 _ r
  · intro t ht
    rcases List.mem_cons.1 ht with rfl | hbelow
    · exact Nat.zero_le _
    · change t ∈ Hierarchy.preorderAll (o.hierarchy rootName entries).children at hbelow
      obtain ⟨page, p, r, -, hleads, hnd, rfl⟩ := mem_preorderAll_hierarchy.1 hbelow
      rw [(places_subtree o page _ r).depth]
      exact Nat.succ_le_succ (hleads.length_passed_le hnd)

end Outline

end MiniProgram
