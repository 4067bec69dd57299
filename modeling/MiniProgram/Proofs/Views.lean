/-
The two views of a report show the same components and the same uses. The hierarchy shows what routes
without repetition lead to, and the graph all that was found. They agree because a search finds exactly
what such routes lead to (`Searched.mem_keys_iff_reachable`) and leaves out no target of what it finds, so
that the graph drops no use.
-/
import MiniProgram.Proofs.Graph
import MiniProgram.Proofs.Routes
import MiniProgram.Proofs.Verdict

namespace MiniProgram

/-! ## Routes without repetition -/

/-- Go on from where a route stops, to the target number `i`. -/
def Route.further (r : Route) (i : Nat) (q : LogicalPath) : Route :=
  ⟨r.choices ++ [i], r.passed ++ [r.stop], q⟩

namespace ComponentMap

variable {components : ComponentMap} {entries : List LogicalPath} {p q : LogicalPath} {r : Route}

theorem Leads.further {c : Component} {i : Nat} (h : components.Leads p r)
    (hfind : components.find? r.stop = some c) (htarget : c.targets[i]? = some q) :
    components.Leads p (r.further i q) := by
  induction h with
  | stay p => exact .via hfind htarget (.stay q)
  | via hf ht _ ih => exact .via hf ht (ih hfind)

/-- A route that passes a component has a start that stops there for the first time. -/
theorem Leads.exists_start (h : components.Leads p r) (hq : q ∈ r.passed) :
    ∃ s, components.Leads p s ∧ s.stop = q ∧ q ∉ s.passed ∧ s.passed <+: r.passed := by
  induction h with
  | stay => cases hq
  | @via p _ c i r hfind htarget _ ih =>
    by_cases hp : q = p
    · exact ⟨.stay p, .stay p, hp.symm, List.not_mem_nil, List.nil_prefix⟩
    · rw [Route.via_passed, List.mem_cons] at hq
      obtain ⟨s, hs, hstop, hnot, hpre⟩ := ih (hq.resolve_left hp)
      refine ⟨.via i p s, .via hfind htarget hs, hstop, ?_, List.prefix_cons_inj p |>.2 hpre⟩
      rw [Route.via_passed, List.mem_cons]
      exact not_or.2 ⟨hp, hnot⟩

/-- A component to which a route from an entry leads that meets no component twice. -/
def Reachable (components : ComponentMap) (entries : List LogicalPath) (p : LogicalPath) : Prop :=
  ∃ e ∈ entries, ∃ r, components.Leads e r ∧ r.stop = p ∧ r.passed.Nodup ∧ p ∉ r.passed

theorem Reachable.target {c : Component} (h : components.Reachable entries p)
    (hfind : components.find? p = some c) (hq : q ∈ c.targets) : components.Reachable entries q := by
  obtain ⟨e, he, r, hr, rfl, hnd, hnot⟩ := h
  obtain ⟨i, hi⟩ := List.mem_iff_getElem?.1 hq
  have hfurther := hr.further hfind hi
  have hnd' : (r.further i q).passed.Nodup := by
    refine List.nodup_append.2 ⟨hnd, List.pairwise_singleton .., fun a ha b hb => ?_⟩
    rw [List.mem_singleton.1 hb]
    exact fun hab => hnot (hab ▸ ha)
  by_cases hmem : q ∈ (r.further i q).passed
  · -- the route comes back to `q`: its start up to there is long enough
    obtain ⟨s, hs, hstop, hnot', hpre⟩ := hfurther.exists_start hmem
    exact ⟨e, he, s, hs, hstop, hnd'.sublist hpre.sublist, hnot'⟩
  · exact ⟨e, he, r.further i q, hfurther, rfl, hnd', hmem⟩

/-- The components that can be reached hold the entries and the targets of what they hold. -/
theorem closed_reachable (components : ComponentMap) (entries : List LogicalPath) :
    components.Closed entries {p | components.Reachable entries p} :=
  ⟨fun p hp => ⟨p, hp, .stay p, .stay p, rfl, List.nodup_nil, List.not_mem_nil⟩,
    fun _ hp _ hfind _ hq => hp.target hfind hq⟩

/-- A route does not leave a closed set. -/
theorem Closed.stop_mem {S : Set LogicalPath} (h : components.Closed entries S) (hr : components.Leads p r)
    (hp : p ∈ S) : r.stop ∈ S := by
  induction hr with
  | stay => exact hp
  | via hfind htarget _ ih => exact ih (h.2 _ hp _ hfind _ (List.mem_of_getElem? htarget))

end ComponentMap

/-! ## The hierarchy -/

namespace Hierarchy

/-- A place of the component `p` stands below the root. -/
def Shows (t : Hierarchy) (p : LogicalPath) : Prop :=
  ∃ u ∈ preorderAll t.children, u.placement.path = some p

/-- A place of `q` stands right below a place of `p`, both of them below the root. -/
def ShowsUnder (t : Hierarchy) (p q : LogicalPath) : Prop :=
  ∃ u ∈ preorderAll t.children, u.placement.path = some p ∧ ∃ v ∈ u.children, v.placement.path = some q

end Hierarchy

namespace Outline

variable {o : Outline} {rootName : String} {entries : List LogicalPath} {p q : LogicalPath}

theorem path_tree (o : Outline) (p : LogicalPath) (depth page : Nat) (inherited : Option Color)
    (ancestors : List LogicalPath) :
    (o.tree p depth page inherited ancestors).placement.path = some p := by
  rw [tree_eq]; rfl

theorem shows_hierarchy : (o.hierarchy rootName entries).Shows p ↔
    ∃ e ∈ entries, ∃ r, o.components.Leads e r ∧ r.stop = p ∧ r.passed.Nodup := by
  unfold Hierarchy.Shows
  simp only [mem_preorderAll_hierarchy]
  constructor
  · rintro ⟨t, ⟨page, e, r, he, hr, hnd, rfl⟩, hp⟩
    rw [subtree, path_tree, Option.some.injEq] at hp
    exact ⟨e, List.mem_of_getElem? he, r, hr, hp, hnd⟩
  · rintro ⟨e, he, r, hr, rfl, hnd⟩
    obtain ⟨page, hpage⟩ := List.mem_iff_getElem?.1 he
    exact ⟨_, ⟨page, e, r, hpage, hr, hnd, rfl⟩, path_tree ..⟩

/-- The components shown right below a place. -/
theorem mem_children_subtree {page : Nat} {inherited : Option Color} {r : Route} :
    (∃ v ∈ (o.subtree 1 page inherited [] r).children, v.placement.path = some q) ↔
      r.stop ∉ r.passed ∧ q ∈ o.components.targetsOf r.stop := by
  have hchildren : (o.subtree 1 page inherited [] r).children.map (·.placement.path) =
      (o.opened r.stop r.passed.reverse).map some := by
    rw [subtree, tree_eq, List.append_nil, Hierarchy.children, List.map_map]
    exact List.map_congr_left fun q _ => path_tree ..
  rw [← List.mem_map (f := fun v : Hierarchy => v.placement.path), hchildren]
  unfold opened
  simp only [List.mem_reverse, List.mem_map, Option.some.injEq, exists_eq_right]
  split
  · rename_i h
    simp [h]
  · rename_i h
    simp [h]

theorem showsUnder_hierarchy : (o.hierarchy rootName entries).ShowsUnder p q ↔
    o.components.Reachable entries p ∧ q ∈ o.components.targetsOf p := by
  unfold Hierarchy.ShowsUnder ComponentMap.Reachable
  simp only [mem_preorderAll_hierarchy]
  constructor
  · rintro ⟨t, ⟨page, e, r, he, hr, hnd, rfl⟩, hp, hbelow⟩
    rw [mem_children_subtree] at hbelow
    rw [subtree, path_tree, Option.some.injEq] at hp
    subst hp
    exact ⟨⟨e, List.mem_of_getElem? he, r, hr, rfl, hnd, hbelow.1⟩, hbelow.2⟩
  · rintro ⟨⟨e, he, r, hr, rfl, hnd, hnot⟩, hq⟩
    obtain ⟨page, hpage⟩ := List.mem_iff_getElem?.1 he
    exact ⟨_, ⟨page, e, r, hpage, hr, hnd, rfl⟩, path_tree .., mem_children_subtree.2 ⟨hnot, hq⟩⟩

end Outline

/-! ## Reports -/

namespace Searched

variable {project : Project} {entries seen : List LogicalPath} {done : Resolution} {trail : Trail}
  {p q : LogicalPath}

/-- A search finds what routes without repetition lead to. -/
theorem mem_keys_iff_reachable (h : Searched project entries [] seen done trail) :
    p ∈ done.components.keys ↔ done.components.Reachable entries p := by
  obtain ⟨hclosed, hleast⟩ := h.isLeast_keys
  constructor
  · intro hp
    exact hleast (done.components.closed_reachable entries) hp
  · rintro ⟨e, he, r, hr, rfl, -⟩
    exact hclosed.stop_mem hr (hclosed.1 e he)

/-- A search leaves out no target. -/
theorem mem_keys_of_mem_targetsOf (h : Searched project entries [] seen done trail)
    (hq : q ∈ done.components.targetsOf p) : p ∈ done.components.keys ∧ q ∈ done.components.keys := by
  obtain ⟨c, hfind, hq⟩ := ComponentMap.mem_targetsOf.1 hq
  have hp : p ∈ done.components.keys := OrderedMap.mem_keys_of_find? hfind
  exact ⟨hp, h.isLeast_keys.1.2 p hp c hfind q hq⟩

end Searched

/-- In a report the hierarchy below its root and the graph show the components that were found, and a
component stands right below another one in the hierarchy exactly where the graph has a use of it by the
other one. Every use by a component that was found is in the graph. -/
theorem views_agree {config : Config} {fs : FileSystem} {root : FilePath} {reader : Color.Reader}
    {report : Report} (h : check config fs root reader = .ok report) (highlights : List LogicalPath) :
    {p | (report.hierarchy highlights).Shows p} = {p | p ∈ report.components.keys} ∧
    {p | p ∈ report.graph.vertices.map Vertex.path} = {p | p ∈ report.components.keys} ∧
    {e : Edge | (report.hierarchy highlights).ShowsUnder e.source e.target} = {e | e ∈ report.graph.edges} ∧
    ∀ p c, (p, c) ∈ report.components.entries → ∀ q ∈ c.targets, (⟨p, q⟩ : Edge) ∈ report.graph.edges := by
  obtain ⟨palette, text, pages, entries, found, orphans, -, -, -, -, hfound, -, rfl⟩ := check_eq_ok_iff.1 h
  obtain ⟨seen, trail, hs⟩ := Project.resolve_searched hfound
  refine ⟨?_, ?_, ?_, fun p c he q hq => ?_⟩
  · ext p
    refine Outline.shows_hierarchy.trans ⟨?_, fun hp => ?_⟩
    · rintro ⟨e, he, r, hr, rfl, -⟩
      exact hs.isLeast_keys.1.stop_mem hr (hs.isLeast_keys.1.1 e he)
    · obtain ⟨e, he, r, hr, hstop, hnd, -⟩ := hs.mem_keys_iff_reachable.1 hp
      exact ⟨e, he, r, hr, hstop, hnd⟩
  · simp only [Report.graph, ComponentMap.graph, List.map_map]
    exact congrArg (fun l => {p | p ∈ l}) (List.map_id' _)
  · ext ⟨p, q⟩
    refine Outline.showsUnder_hierarchy.trans (Iff.trans ?_ ComponentMap.mem_edges_graph.symm)
    constructor
    · rintro ⟨-, hq⟩
      exact ⟨hq, (hs.mem_keys_of_mem_targetsOf hq).2⟩
    · rintro ⟨hq, -⟩
      exact ⟨hs.mem_keys_iff_reachable.1 (hs.mem_keys_of_mem_targetsOf hq).1, hq⟩
  · have huse : q ∈ found.components.targetsOf p :=
      ComponentMap.mem_targetsOf.2 ⟨c, OrderedMap.find?_eq_some_iff.2 he, hq⟩
    exact ComponentMap.mem_edges_graph.2 ⟨huse, (hs.mem_keys_of_mem_targetsOf huse).2⟩

/-- Two components that use each other, one of them also itself: three uses in both views. -/
theorem views_agree_mutual :
    let a := topLevel "a" ⟨by decide, by decide, by decide, by decide⟩
    let b := topLevel "b" ⟨by decide, by decide, by decide, by decide⟩
    ∃ report, check {} mutualFiles ⟨["p"]⟩ = .ok report ∧ report.components.keys = [a, b] ∧
      report.graph.edges = [⟨a, b⟩, ⟨b, a⟩, ⟨b, b⟩] ∧
      (report.hierarchy [a]).Shows b ∧ (report.hierarchy [a]).ShowsUnder b b ∧
      ¬ (report.hierarchy [a]).ShowsUnder a a := by
  intro a b
  let project : Project := Config.project {} mutualFiles ⟨["p"]⟩
  obtain ⟨palette, hpalette⟩ := exists_readPalette_default
  obtain ⟨found, hfound, hresult⟩ : ∃ found, project.resolve [a, a] = .ok found ∧
      ((project.orphans found.components).toOption, found.components.keys,
        (found.components.graph project.layout).edges) = (some [], [a, b], [⟨a, b⟩, ⟨b, a⟩, ⟨b, b⟩]) :=
    Project.exists_resolve_of_within (n := 2) (by decide +kernel)
  simp only [Prod.mk.injEq] at hresult
  obtain ⟨horphans, hkeys, hedges⟩ := hresult
  have h := check_eq_ok_iff.2 ⟨palette, "\x7b\"pages\":[\"a\",\"a\"]\x7d", ["a", "a"], [a, a], found, [],
    hpalette, eq_ok_of_toOption (by decide +kernel), eq_ok_of_toOption (by decide +kernel),
    eq_ok_of_toOption (by decide +kernel), hfound, eq_ok_of_toOption horphans, rfl⟩
  obtain ⟨hshows, -, hunder, -⟩ := views_agree h [a]
  refine ⟨_, h, hkeys, hedges, ?_, ?_, fun haa => ?_⟩
  · have hb : b ∈ {p | p ∈ found.components.keys} := by rw [hkeys]; decide
    rw [← hshows] at hb
    exact hb
  · have hbb : (⟨b, b⟩ : Edge) ∈ {e | e ∈ (found.components.graph project.layout).edges} := by
      rw [hedges]; decide
    exact hunder.superset hbb
  · have hmem : (⟨a, a⟩ : Edge) ∈ (found.components.graph project.layout).edges := hunder.subset haa
    rw [hedges] at hmem
    revert hmem
    decide

end MiniProgram
