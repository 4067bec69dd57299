/-
Pre-order of documents and hierarchies. Two walks list the nodes of a tree: one keeps lists of siblings
still to be visited and drops them when they are used up, the other keeps single nodes and puts the
children of each on its stack in reverse, the first one on top. Both yield each node once, followed by
what lies below it, siblings in order, as the recursion on the tree lists them, and so the distinct tags
of a document are those of the elements whose name no element before them has (`walks_in_preorder`).
-/
import MiniProgram.Proofs.Markup.Walk
import MiniProgram.Proofs.Routes

namespace MiniProgram

/-! ## What an iterator yields -/

/-- The items that `next?` gives one after another from a state on, until it has no more. -/
inductive Yields {σ α : Type} (next? : σ → Option (α × σ)) : σ → List α → Prop
  | done {s : σ} : next? s = none → Yields next? s []
  | item {s s' : σ} {a : α} {as : List α} : next? s = some (a, s') → Yields next? s' as →
      Yields next? s (a :: as)

namespace Yields

variable {σ α : Type} {next? : σ → Option (α × σ)} {s : σ} {as bs : List α}

theorem unique (ha : Yields next? s as) (hb : Yields next? s bs) : as = bs := by
  induction ha generalizing bs with
  | done hend =>
    cases hb with
    | done => rfl
    | item hnext => rw [hend] at hnext; cases hnext
  | item hnext _ ih =>
    cases hb with
    | done hend => rw [hend] at hnext; cases hnext
    | item hnext' htail =>
      rw [hnext] at hnext'
      cases hnext'
      rw [ih htail]

theorem iff_eq (h : Yields next? s as) : Yields next? s bs ↔ bs = as :=
  ⟨fun hb => hb.unique h, fun e => e ▸ h⟩

end Yields

/-! ## Hierarchies -/

namespace Hierarchy

/-- The tree on top of the stack, and the stack with its children in its place. The top is last, so the
children go on it in reverse. -/
def next? (stack : List Hierarchy) : Option (Hierarchy × List Hierarchy) :=
  stack.getLast?.map fun t => (t, stack.dropLast ++ t.children.reverse)

theorem next?_nil : next? [] = none := rfl

theorem next?_concat (stack : List Hierarchy) (t : Hierarchy) :
    next? (stack ++ [t]) = some (t, stack ++ t.children.reverse) := by
  rw [next?, List.getLast?_concat, Option.map_some, List.dropLast_concat]

/-- A visit with the top first goes the way of the stack with the top last. -/
theorem yields_visit (stack : List Hierarchy) : Yields next? stack.reverse (visit stack) := by
  fun_induction visit stack with
  | case1 => exact .done next?_nil
  | case2 p cs rest ih =>
    rw [List.reverse_append] at ih
    rw [List.reverse_cons]
    exact .item (next?_concat rest.reverse (node p cs)) ih

theorem preorder_eq (t : Hierarchy) : t.preorder = t :: t.children.flatMap preorder := by
  obtain ⟨p, cs⟩ := t
  rw [preorder, preorderAll_eq_flatMap, children]

/-- What is on the stack is visited from the top, each tree with all below it before the next one. -/
theorem visit_eq_flatMap (stack : List Hierarchy) : visit stack = stack.flatMap preorder := by
  fun_induction visit stack with
  | case1 => rfl
  | case2 p cs rest ih =>
    rw [ih, List.flatMap_append, List.flatMap_cons, preorder_eq (node p cs), List.cons_append, children]

theorem toList_eq_preorder (t : Hierarchy) : t.toList = t.preorder := by
  rw [toList, visit_eq_flatMap, List.flatMap_singleton]

end Hierarchy

namespace Markup

/-! ## Documents -/

namespace Node

/-- The nodes directly below a node. -/
def children : Node → List Node
  | element _ _ cs => cs
  | text _ _ | comment _ _ => []

/-- The name of an element. -/
def name? (n : Node) : Option String := n.tag?.map (·.name.value)

theorem inOrder_eq (ns : List Node) : inOrder ns = ns.flatMap fun n => n :: inOrder n.children := by
  induction ns with
  | nil => rfl
  | cons n ns ih =>
    rw [List.flatMap_cons, ← ih]
    cases n with
    | element t s cs => rw [inOrder_element, children, List.cons_append]
    | text v s => rw [inOrder_text, children, inOrder_nil, List.cons_append, List.nil_append]
    | comment v s => rw [inOrder_comment, children, inOrder_nil, List.cons_append, List.nil_append]

end Node

theorem Walk.yields_toList (w : Walk) : Yields next? w w.toList := by
  fun_induction toList w with
  | case1 w hend => exact .done hend
  | case2 w n w' hnext ih => exact .item hnext ih

/-! ## First elements by name -/

/-- The name of the element at place `i` of a list of nodes. -/
def nameAt? (ns : List Node) (i : Nat) : Option String := ns[i]?.bind Node.name?

/-- An element stands at place `i`, and no element before it has its name. -/
def FirstAt (ns : List Node) (i : Nat) : Prop :=
  nameAt? ns i ≠ none ∧ ∀ j < i, nameAt? ns j ≠ nameAt? ns i

instance (ns : List Node) (i : Nat) : Decidable (FirstAt ns i) :=
  inferInstanceAs (Decidable (_ ∧ _))

/-- The places of the elements whose name no element before them has. -/
def firstPlaces (ns : List Node) : List Nat := (List.range ns.length).filter fun i => FirstAt ns i

section
variable {ns : List Node} {n : Node} {i : Nat}

theorem nameAt?_append_of_lt (h : i < ns.length) (ms : List Node) :
    nameAt? (ns ++ ms) i = nameAt? ns i := by
  rw [nameAt?, List.getElem?_append_left h, nameAt?]

theorem nameAt?_concat (ns : List Node) (n : Node) : nameAt? (ns ++ [n]) ns.length = n.name? := by
  rw [nameAt?, List.getElem?_concat_length, Option.bind_some]

/-- Whether an element is the first of its name does not depend on what comes after it. -/
theorem firstAt_append_of_lt (h : i < ns.length) (ms : List Node) :
    FirstAt (ns ++ ms) i ↔ FirstAt ns i := by
  have hbefore : ∀ j < i, nameAt? (ns ++ ms) j = nameAt? ns j := fun j hj =>
    nameAt?_append_of_lt (hj.trans h) ms
  rw [FirstAt, FirstAt, nameAt?_append_of_lt h]
  exact and_congr_right fun _ => forall₂_congr fun j hj => by rw [hbefore j hj]

/-- The element names among some nodes are the names at their places. -/
theorem mem_names_iff {name : String} :
    name ∈ (ns.filterMap Node.tag?).map (·.name.value) ↔ ∃ j < ns.length, nameAt? ns j = some name := by
  rw [List.map_filterMap, List.mem_filterMap]
  constructor
  · rintro ⟨n, hn, hname⟩
    obtain ⟨j, hj⟩ := List.mem_iff_getElem?.1 hn
    exact ⟨j, (List.getElem?_eq_some_iff.1 hj).1, by rw [nameAt?, hj]; exact hname⟩
  · rintro ⟨j, -, hname⟩
    obtain ⟨n, hn, hname⟩ := Option.bind_eq_some_iff.1 hname
    exact ⟨n, List.mem_iff_getElem?.2 ⟨j, hn⟩, hname⟩

theorem not_firstAt_concat (hn : n.tag? = none) : ¬ FirstAt (ns ++ [n]) ns.length := by
  rintro ⟨hname, -⟩
  rw [nameAt?_concat, Node.name?, hn] at hname
  exact hname rfl

theorem firstAt_concat_iff {t : Tag} (hn : n.tag? = some t) :
    FirstAt (ns ++ [n]) ns.length ↔ t.name.value ∉ (ns.filterMap Node.tag?).map (·.name.value) := by
  have hname : nameAt? (ns ++ [n]) ns.length = some t.name.value := by
    rw [nameAt?_concat, Node.name?, hn, Option.map_some]
  rw [FirstAt, hname, mem_names_iff]
  constructor
  · rintro ⟨-, hbefore⟩ ⟨j, hj, hjn⟩
    exact hbefore j hj (by rw [nameAt?_append_of_lt hj, hjn])
  · intro hno
    refine ⟨Option.some_ne_none _, fun j hj hjn => hno ⟨j, hj, ?_⟩⟩
    rw [← nameAt?_append_of_lt hj [n], hjn]

theorem firstPlaces_concat (ns : List Node) (n : Node) :
    firstPlaces (ns ++ [n]) =
      firstPlaces ns ++ if FirstAt (ns ++ [n]) ns.length then [ns.length] else [] := by
  have hbefore : (List.range ns.length).filter (fun i => decide (FirstAt (ns ++ [n]) i)) = firstPlaces ns :=
    List.filter_congr fun i hi => decide_eq_decide.2 (firstAt_append_of_lt (List.mem_range.1 hi) [n])
  rw [firstPlaces, List.length_append, List.length_singleton, List.range_succ, List.filter_append, hbefore,
    List.filter_singleton, Bool.cond_decide]

theorem lt_of_mem_firstPlaces (h : i ∈ firstPlaces ns) : i < ns.length :=
  List.mem_range.1 (List.mem_filter.1 h).1

end

/-- One more tag at the end is kept when its name is new. -/
theorem firstByName_concat (t : Tag) : ∀ (seen : List String) (ts : List Tag),
    firstByName seen (ts ++ [t]) = firstByName seen ts ++
      if t.name.value ∈ seen ∨ t.name.value ∈ ts.map (·.name.value) then [] else [t]
  | seen, [] => by
    simp only [List.nil_append, firstByName, List.map_nil, List.not_mem_nil, or_false]
  | seen, u :: ts => by
    rw [List.cons_append, firstByName, firstByName]
    -- the name of `u` is among `seen` behind it, whether it stood there before or not
    by_cases hu : u.name.value ∈ seen
    · rw [if_pos hu, if_pos hu, firstByName_concat t seen ts]
      congr 1
      refine if_congr ?_ rfl rfl
      rw [List.map_cons, List.mem_cons]
      constructor
      · exact Or.imp_right .inr
      · rintro (h | h | h)
        · exact .inl h
        · exact .inl (h ▸ hu)
        · exact .inr h
    · rw [if_neg hu, if_neg hu, firstByName_concat t (u.name.value :: seen) ts, List.cons_append]
      congr 2
      refine if_congr ?_ rfl rfl
      rw [List.map_cons, List.mem_cons, List.mem_cons, or_assoc, or_left_comm]

/-- The first tags by name are those at the first places. -/
theorem map_some_firstByName (ns : List Node) :
    (firstByName [] (ns.filterMap Node.tag?)).map some =
      (firstPlaces ns).map fun i => ns[i]?.bind Node.tag? := by
  -- by induction from the end: a node that follows changes no place before it
  induction ns using List.reverseRecOn with
  | nil => rfl
  | append_singleton ns n ih =>
    have hbefore : ((firstPlaces ns).map fun i => (ns ++ [n])[i]?.bind Node.tag?) =
        (firstPlaces ns).map fun i => ns[i]?.bind Node.tag? :=
      List.map_congr_left fun i hi => by rw [List.getElem?_append_left (lt_of_mem_firstPlaces hi)]
    rw [List.filterMap_append, firstPlaces_concat, List.map_append, hbefore, ← ih]
    cases hn : n.tag? with
    | none =>
      rw [if_neg (not_firstAt_concat hn), List.filterMap_cons_none hn, List.filterMap_nil, List.append_nil,
        List.map_nil, List.append_nil]
    | some t =>
      rw [List.filterMap_cons_some hn, List.filterMap_nil, firstByName_concat, List.map_append]
      congr 1
      by_cases hnew : t.name.value ∈ (ns.filterMap Node.tag?).map (·.name.value)
      · rw [if_pos (.inr hnew), if_neg (mt (firstAt_concat_iff hn).1 (not_not_intro hnew)), List.map_nil,
          List.map_nil]
      · have hno : ¬ (t.name.value ∈ ([] : List String) ∨
            t.name.value ∈ (ns.filterMap Node.tag?).map (·.name.value)) := by
          rintro (h | h)
          · cases h
          · exact hnew h
        rw [if_neg hno, if_pos ((firstAt_concat_iff hn).2 hnew), List.map_singleton, List.map_singleton,
          List.getElem?_concat_length, Option.bind_some, hn]

/-- No name stands twice among the first tags by name. -/
theorem nodup_map_name_firstByName : ∀ (seen : List String) (ts : List Tag),
    ((firstByName seen ts).map (·.name.value)).Nodup
  | seen, [] => .nil
  | seen, t :: ts => by
    rw [firstByName]
    split
    · exact nodup_map_name_firstByName seen ts
    · rw [List.map_cons, List.nodup_cons]
      refine ⟨fun h => ?_, nodup_map_name_firstByName _ ts⟩
      obtain ⟨u, hu, hname⟩ := List.mem_map.1 h
      exact (exists_mem_firstByName.1 ⟨u, hu, hname⟩).1 (List.mem_cons_self ..)

end Markup

/-! ## Both walks -/

open Markup in
/-- Both walks list exactly the nodes that the recursion on the tree lists, in its order: each node, then
what lies below it, then its next sibling. Of the elements of a document listed so, the distinct tags are
those at the places where a name occurs first, and every element name stands among them once. -/
theorem walks_in_preorder :
    (∀ d : Document,
      (∀ out, Yields Walk.next? [d.nodes] out ↔ out = Node.inOrder d.nodes) ∧
      d.descendants = Node.inOrder d.nodes ∧
      (d.distinctTags.map some = (firstPlaces d.descendants).map fun i => d.descendants[i]?.bind Node.tag?) ∧
      (d.distinctTags.map (·.name.value)).Nodup ∧
      ∀ name, name ∈ d.distinctTags.map (·.name.value) ↔ d.HasElement name) ∧
    (∀ ns : List Node, Node.inOrder ns = ns.flatMap fun n => n :: Node.inOrder n.children) ∧
    (∀ t : Hierarchy,
      (∀ out, Yields Hierarchy.next? [t] out ↔ out = t.preorder) ∧ t.toList = t.preorder) ∧
    ∀ t : Hierarchy, t.preorder = t :: t.children.flatMap Hierarchy.preorder := by
  refine ⟨fun d => ⟨fun out => ?_, d.descendants_eq_inOrder, map_some_firstByName _,
    nodup_map_name_firstByName [] d.tags, fun name => ?_⟩, Node.inOrder_eq, fun t => ⟨fun out => ?_,
    t.toList_eq_preorder⟩, Hierarchy.preorder_eq⟩
  · rw [← d.descendants_eq_inOrder]
    exact (Walk.yields_toList [d.nodes]).iff_eq
  · rw [List.mem_map]
    exact d.exists_mem_distinctTags
  · rw [← t.toList_eq_preorder]
    exact (Hierarchy.yields_visit [t]).iff_eq

end MiniProgram
