/-
The usage graph of a component map. It has the components of the map as vertices. Its edges are put in by
a scan of the map, each when it is first met (`updateEdge_eraseDups`), so they are the uses among the
components, each once (`edges_eq_eraseDups`) and in the order in which the scan first meets them
(`pairwise_idxOf_eraseDups_filter`). An edge touches its two ends, or one component twice, so the weights
of all vertices make up twice the number of edges (`sum_weight`).
-/
import Mathlib.Algebra.BigOperators.Group.List.Lemmas
import Mathlib.Algebra.GroupWithZero.Nat
import MiniProgram.Graph
import MiniProgram.Proofs.BreadthFirst

namespace MiniProgram

/-! ## The scan -/

/-- Putting in one more edge keeps a list without its repetitions. -/
theorem updateEdge_eraseDups (edges : List Edge) (e : Edge) :
    updateEdge edges.eraseDups e = (edges ++ [e]).eraseDups := by
  rw [eraseDups_concat, updateEdge]
  simp only [List.mem_eraseDups]

/-- Edge after edge, what was put in is the list so far without its repetitions. -/
theorem foldl_updateEdge (met : List Edge) :
    ∀ edges : List Edge, met.foldl updateEdge edges.eraseDups = (edges ++ met).eraseDups := by
  induction met with
  | nil => exact fun edges => by rw [List.foldl_nil, List.append_nil]
  | cons e met ih =>
    intro edges
    rw [List.foldl_cons, updateEdge_eraseDups, ih, List.append_assoc, List.singleton_append]

namespace ComponentMap

variable {components : ComponentMap} {p q : LogicalPath}

/-- The uses that a scan of the map meets, whether the used component is known or not. -/
def scanned (components : ComponentMap) : List Edge :=
  components.entries.flatMap fun (path, component) => component.targets.map (⟨path, ·⟩)

/-- The targets of one component put in its uses of known components. -/
theorem updateEdges_eq_foldl (components : ComponentMap) (source : LogicalPath) (edges : List Edge)
    (targets : List LogicalPath) :
    components.updateEdges source edges targets =
      ((targets.map (⟨source, ·⟩)).filter fun e => components.contains e.target).foldl updateEdge edges := by
  rw [updateEdges, List.foldl_filter, List.foldl_map]

/-- The scan puts in every use of a known component once. -/
theorem edges_eq_eraseDups (components : ComponentMap) :
    components.edges = (components.scanned.filter fun e => components.contains e.target).eraseDups := by
  have hscan : components.edges =
      (components.scanned.filter fun e => components.contains e.target).foldl updateEdge [] := by
    rw [scanned, List.filter_flatMap, List.foldl_flatMap, edges]
    exact congrArg (fun f => components.entries.foldl f []) (funext fun edges => funext fun (path, component) =>
      components.updateEdges_eq_foldl path edges component.targets)
  rw [hscan]
  exact foldl_updateEdge _ []

theorem mem_targetsOf : q ∈ components.targetsOf p ↔ ∃ c, components.find? p = some c ∧ q ∈ c.targets := by
  unfold targetsOf
  cases components.find? p with
  | none => simp
  | some c => simp

theorem mem_edges_graph {layout : Layout} : (⟨p, q⟩ : Edge) ∈ (components.graph layout).edges ↔
    q ∈ components.targetsOf p ∧ q ∈ components.keys := by
  rw [graph, edges_eq_eraseDups, scanned]
  simp only [List.mem_eraseDups, List.mem_filter, List.mem_flatMap, List.mem_map, OrderedMap.contains_iff,
    mem_targetsOf, OrderedMap.find?_eq_some_iff, Prod.exists, Edge.mk.injEq]
  constructor
  · rintro ⟨⟨p, c, he, q, hq, rfl, rfl⟩, hkey⟩
    exact ⟨⟨c, he, hq⟩, hkey⟩
  · rintro ⟨⟨c, he, hq⟩, hkey⟩
    exact ⟨⟨p, c, he, q, hq, rfl, rfl⟩, hkey⟩

end ComponentMap

/-! ## The order of first occurrence -/

/-- What is left of a list without repetitions comes in the order of its first occurrences in the list. -/
theorem pairwise_idxOf_eraseDups_filter {α : Type} [DecidableEq α] : ∀ (l : List α) (keep : α → Bool),
    (l.filter keep).eraseDups.Pairwise fun a b => l.idxOf a < l.idxOf b
  | [], _ => by simp
  | a :: l, keep => by
    -- everything behind the first element differs from it, so all places move by one
    have hshift : ∀ keep' : α → Bool, (∀ b, keep' b = true → b ≠ a) →
        (l.filter keep').eraseDups.Pairwise fun b c => (a :: l).idxOf b < (a :: l).idxOf c := by
      intro keep' hne
      have hbehind : ∀ b ∈ (l.filter keep').eraseDups, (a :: l).idxOf b = l.idxOf b + 1 := by
        intro b hb
        rw [List.mem_eraseDups, List.mem_filter] at hb
        exact List.idxOf_cons_ne l (hne b hb.2).symm
      refine (pairwise_idxOf_eraseDups_filter l keep').imp_of_mem fun {b c} hb hc h => ?_
      rw [hbehind b hb, hbehind c hc]
      omega
    by_cases ha : keep a = true
    · rw [List.filter_cons_of_pos ha, List.eraseDups_cons, List.filter_filter]
      have hothers := hshift (fun b => !b == a && keep b) fun b hb => by
        simpa using (Bool.and_eq_true_iff.1 hb).1
      refine List.pairwise_cons.2 ⟨fun b hb => ?_, hothers⟩
      have hb' : b ≠ a := by
        rw [List.mem_eraseDups, List.mem_filter] at hb
        simpa using (Bool.and_eq_true_iff.1 hb.2).1
      rw [List.idxOf_cons_self, List.idxOf_cons_ne l hb'.symm]
      omega
    · rw [List.filter_cons_of_neg ha]
      exact hshift keep fun b hb hba => ha (hba ▸ hb)

/-! ## Weights -/

/-- Edges are counted once each by the paths that they end at. -/
theorem sum_countP_eq_length {paths : List LogicalPath} (hnd : paths.Nodup) (stop : Edge → LogicalPath) :
    ∀ {edges : List Edge}, (∀ e ∈ edges, stop e ∈ paths) →
      (paths.map fun p => edges.countP (stop · = p)).sum = edges.length
  | [], _ => by simp
  | e :: edges, h => by
    have hone : (paths.map fun p => if stop e = p then 1 else 0).sum = 1 := by
      rw [List.sum_map_eq_nsmul_single (stop e) _ fun p hp _ => if_neg (Ne.symm hp),
        List.count_eq_one_of_mem hnd (h e (.head _)), if_pos rfl, one_nsmul]
    have hrest := sum_countP_eq_length hnd stop fun e' he' => h e' (.tail _ he')
    simp only [List.countP_cons, decide_eq_true_eq, List.sum_map_add, hrest, hone, List.length_cons]

/-- Every edge has two ends, so it is counted twice by all weights together. -/
theorem sum_weight {paths : List LogicalPath} (hnd : paths.Nodup) {edges : List Edge}
    (h : ∀ e ∈ edges, e.source ∈ paths ∧ e.target ∈ paths) :
    (paths.map (weight edges)).sum = 2 * edges.length := by
  have htargets := sum_countP_eq_length hnd Edge.target fun e he => (h e he).2
  have hsources := sum_countP_eq_length hnd Edge.source fun e he => (h e he).1
  unfold weight
  rw [List.sum_map_add, htargets, hsources]
  omega

/-! ## The graph -/

namespace ComponentMap

theorem mem_keys_of_mem_edges_graph (components : ComponentMap) (layout : Layout) {e : Edge}
    (h : e ∈ (components.graph layout).edges) :
    e.source ∈ components.keys ∧ e.target ∈ components.keys := by
  obtain ⟨htarget, hkey⟩ := mem_edges_graph.1 h
  obtain ⟨c, hfind, -⟩ := mem_targetsOf.1 htarget
  exact ⟨OrderedMap.mem_keys_of_find? hfind, hkey⟩

end ComponentMap

/-- The graph of a component map: its vertices are the components in the order of the map, its edges are the
uses among them, each once and in the order of their first occurrence in a scan of the map, and a vertex
weighs as much as the edges that leave it and those that reach it. All together weigh twice the edges. -/
theorem graph_uses_and_weights (components : ComponentMap) (layout : Layout) :
    let g := components.graph layout
    (g.vertices.map Vertex.path = components.keys ∧ components.keys.Nodup) ∧
    (∀ u v, (⟨u, v⟩ : Edge) ∈ g.edges ↔
      u ∈ components.keys ∧ v ∈ components.keys ∧ v ∈ components.targetsOf u) ∧
    g.edges.Nodup ∧
    g.edges.Pairwise (fun e f => components.scanned.idxOf e < components.scanned.idxOf f) ∧
    (∀ x ∈ g.vertices, x.weight = g.edges.countP (·.source = x.path) + g.edges.countP (·.target = x.path)) ∧
    (g.vertices.map Vertex.weight).sum = 2 * g.edges.length := by
  intro g
  have horder : g.edges.Pairwise fun e f => components.scanned.idxOf e < components.scanned.idxOf f := by
    rw [show g.edges = components.edges from rfl, components.edges_eq_eraseDups]
    exact pairwise_idxOf_eraseDups_filter components.scanned _
  refine ⟨⟨?_, components.nodup⟩, fun u v => ?_, ?_, horder, ?_, ?_⟩
  · simp only [g, ComponentMap.graph, List.map_map]
    exact List.map_id' _
  · constructor
    · intro he
      obtain ⟨hu, hv⟩ := components.mem_keys_of_mem_edges_graph layout he
      exact ⟨hu, hv, (ComponentMap.mem_edges_graph.1 he).1⟩
    · rintro ⟨-, hv, hused⟩
      exact ComponentMap.mem_edges_graph.2 ⟨hused, hv⟩
  · -- an edge does not come before itself
    exact horder.imp fun {e f} hlt hef => by subst hef; omega
  · intro x hx
    obtain ⟨p, -, rfl⟩ := List.mem_map.1 hx
    exact Nat.add_comm _ _
  · have hsum := sum_weight components.nodup fun e => components.mem_keys_of_mem_edges_graph layout
    simp only [g, ComponentMap.graph, List.map_map]
    exact hsum

end MiniProgram
