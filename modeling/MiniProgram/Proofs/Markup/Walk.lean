/-
Document order. The walk with a stack of siblings lists the nodes of a forest in the order of the
recursion on the tree (`toList_eq_flatMap_inOrder`), it lists every node that stands anywhere in the
forest (`mem_descendants`), and the first tags by name stand for all element names
(`exists_mem_distinctTags`).
-/
import MiniProgram.Markup.Document

namespace MiniProgram.Markup

namespace Node

/-! ## The order of the recursion -/

/-- The nodes of a forest in document order, without their depths. -/
def inOrder (ns : List Node) : List Node := (preorderAll 0 ns).map Prod.snd

mutual
/-- The order of the nodes does not depend on the depth they are counted from. -/
theorem map_snd_preorder (d e : Nat) : ∀ n : Node,
    (preorder d n).map Prod.snd = (preorder e n).map Prod.snd
  | element t s children => by
    simp only [preorder, List.map_cons]
    rw [map_snd_preorderAll (d + 1) (e + 1) children]
  | text v s => rfl
  | comment v s => rfl
theorem map_snd_preorderAll (d e : Nat) : ∀ ns : List Node,
    (preorderAll d ns).map Prod.snd = (preorderAll e ns).map Prod.snd
  | [] => rfl
  | n :: ns => by
    simp only [preorderAll, List.map_append]
    rw [map_snd_preorder d e n, map_snd_preorderAll d e ns]
end

@[simp] theorem inOrder_nil : inOrder [] = [] := rfl

@[simp] theorem inOrder_text (v : String) (s : Text.Span) (ns : List Node) :
    inOrder (text v s :: ns) = text v s :: inOrder ns := rfl

@[simp] theorem inOrder_comment (v : String) (s : Text.Span) (ns : List Node) :
    inOrder (comment v s :: ns) = comment v s :: inOrder ns := rfl

@[simp] theorem inOrder_element (t : Tag) (s : Text.Span) (children ns : List Node) :
    inOrder (element t s children :: ns) = element t s children :: (inOrder children ++ inOrder ns) := by
  unfold inOrder
  simp only [preorderAll, preorder, List.cons_append, List.map_cons, List.map_append]
  rw [map_snd_preorderAll (0 + 1) 0 children]

theorem inOrder_cons (n : Node) (ns : List Node) : inOrder (n :: ns) = inOrder [n] ++ inOrder ns := by
  cases n <;> simp

@[simp] theorem inOrder_append : ∀ ms ns : List Node, inOrder (ms ++ ns) = inOrder ms ++ inOrder ns
  | [], ns => rfl
  | m :: ms, ns => by
    rw [List.cons_append, inOrder_cons, inOrder_append ms ns, inOrder_cons m ms, List.append_assoc]

end Node

/-! ## The walk -/

namespace Walk

theorem flatMap_inOrder_of_next?_none {w : Walk} (h : next? w = none) :
    w.flatMap Node.inOrder = [] := by
  fun_induction next? w with
  | case1 => rfl
  | case2 outer ih => simpa using ih h
  | case3 | case4 | case5 => cases h

theorem flatMap_inOrder_of_next? {w w' : Walk} {n : Node} (h : next? w = some (n, w')) :
    w.flatMap Node.inOrder = n :: w'.flatMap Node.inOrder := by
  fun_induction next? w with
  | case1 => cases h
  | case2 outer ih => simpa using ih h
  | case3 | case4 | case5 => cases h; simp

/-- The walk lists its levels one after another, each in the order of the recursion. -/
theorem toList_eq_flatMap_inOrder (w : Walk) : w.toList = w.flatMap Node.inOrder := by
  fun_induction toList w with
  | case1 w h => exact (flatMap_inOrder_of_next?_none h).symm
  | case2 w n w' h ih => rw [flatMap_inOrder_of_next? h, ih]

end Walk

theorem Document.descendants_eq_inOrder (d : Document) : d.descendants = Node.inOrder d.nodes := by
  unfold descendants
  rw [Walk.toList_eq_flatMap_inOrder]
  simp

/-! ## Nodes and element names of a document -/

/-- A node stands in a forest at the top, or below an element that does. -/
inductive Node.Within (n : Node) : List Node → Prop
  | top {ns : List Node} : n ∈ ns → Within n ns
  | inside {t : Tag} {s : Text.Span} {children ns : List Node} :
      .element t s children ∈ ns → Within n children → Within n ns

/-- An element of this name stands somewhere in the document. -/
def Document.HasElement (d : Document) (name : String) : Prop :=
  ∃ t s children, Node.Within (.element t s children) d.nodes ∧ t.name.value = name

namespace Node

theorem mem_inOrder_of_mem {n : Node} {ns : List Node} (h : n ∈ ns) : n ∈ inOrder ns := by
  obtain ⟨xs, ys, rfl⟩ := List.append_of_mem h
  rw [inOrder_append]
  refine List.mem_append_right _ ?_
  cases n <;> simp

theorem inOrder_subset_of_mem {t : Tag} {s : Text.Span} {children ns : List Node}
    (h : element t s children ∈ ns) {n : Node} (hn : n ∈ inOrder children) : n ∈ inOrder ns := by
  obtain ⟨xs, ys, rfl⟩ := List.append_of_mem h
  rw [inOrder_append, inOrder_element]
  exact List.mem_append_right _ (List.mem_cons_of_mem _ (List.mem_append_left _ hn))

theorem Within.cons {n m : Node} {ns : List Node} (h : Within n ns) : Within n (m :: ns) := by
  cases h with
  | top h => exact .top (List.mem_cons_of_mem _ h)
  | inside h hn => exact .inside (List.mem_cons_of_mem _ h) hn

mutual
theorem within_of_mem_preorder {n : Node} : ∀ {d : Nat} {m : Node}, n ∈ (preorder d m).map Prod.snd →
    Within n [m]
  | d, element t s children, h => by
    simp only [preorder, List.map_cons, List.mem_cons] at h
    rcases h with rfl | h
    · exact .top (List.mem_singleton_self _)
    · exact .inside (List.mem_singleton_self _) (within_of_mem_preorderAll h)
  | d, text v s, h => .top h
  | d, comment v s, h => .top h
theorem within_of_mem_preorderAll {n : Node} : ∀ {d : Nat} {ms : List Node},
    n ∈ (preorderAll d ms).map Prod.snd → Within n ms
  | d, [], h => by cases h
  | d, m :: ms, h => by
    simp only [preorderAll, List.map_append, List.mem_append] at h
    rcases h with h | h
    · cases within_of_mem_preorder h with
      | top h =>
        rw [List.mem_singleton.1 h]
        exact .top (List.mem_cons_self ..)
      | inside h hn =>
        rw [← List.mem_singleton.1 h]
        exact .inside (List.mem_cons_self ..) hn
    · exact (within_of_mem_preorderAll h).cons
end

theorem mem_inOrder {n : Node} {ns : List Node} : n ∈ inOrder ns ↔ Within n ns := by
  constructor
  · exact within_of_mem_preorderAll
  · intro h
    induction h with
    | top h => exact mem_inOrder_of_mem h
    | inside h _ ih => exact inOrder_subset_of_mem h ih

end Node

namespace Document

theorem mem_descendants {d : Document} {n : Node} : n ∈ d.descendants ↔ Node.Within n d.nodes := by
  rw [descendants_eq_inOrder, Node.mem_inOrder]

theorem mem_tags {d : Document} {t : Tag} :
    t ∈ d.tags ↔ ∃ s children, Node.Within (.element t s children) d.nodes := by
  unfold tags
  rw [List.mem_filterMap]
  constructor
  · rintro ⟨n, hn, ht⟩
    cases n with
    | element t' s children => cases ht; exact ⟨s, children, mem_descendants.1 hn⟩
    | text v s => cases ht
    | comment v s => cases ht
  · rintro ⟨s, children, h⟩
    exact ⟨_, mem_descendants.2 h, rfl⟩

end Document

theorem sublist_firstByName : ∀ (seen : List String) (ts : List Tag), (firstByName seen ts).Sublist ts
  | seen, [] => .slnil
  | seen, t :: ts => by
    rw [firstByName]
    split
    · exact (sublist_firstByName seen ts).cons t
    · exact (sublist_firstByName _ ts).cons_cons t

/-- The first tags by name stand for all names but those seen before. -/
theorem exists_mem_firstByName {name : String} : ∀ {seen : List String} {ts : List Tag},
    (∃ t ∈ firstByName seen ts, t.name.value = name) ↔ name ∉ seen ∧ ∃ t ∈ ts, t.name.value = name
  | seen, [] => by simp [firstByName]
  | seen, t :: ts => by
    rw [firstByName]
    split
    · rename_i ht
      rw [exists_mem_firstByName]
      constructor
      · rintro ⟨hn, u, hu, rfl⟩
        exact ⟨hn, u, List.mem_cons_of_mem _ hu, rfl⟩
      · rintro ⟨hn, u, hu, rfl⟩
        rcases List.mem_cons.1 hu with rfl | hu
        · exact absurd ht hn
        · exact ⟨hn, u, hu, rfl⟩
    · rename_i ht
      simp only [List.mem_cons, exists_eq_or_imp]
      rw [exists_mem_firstByName, List.mem_cons, not_or]
      constructor
      · rintro (rfl | ⟨⟨-, hn⟩, h⟩)
        · exact ⟨ht, .inl rfl⟩
        · exact ⟨hn, .inr h⟩
      · rintro ⟨hn, rfl | h⟩
        · exact .inl rfl
        · by_cases he : name = t.name.value
          · exact .inl he.symm
          · exact .inr ⟨⟨he, hn⟩, h⟩

/-- The distinct tags name exactly the elements of the document. -/
theorem Document.exists_mem_distinctTags {d : Document} {name : String} :
    (∃ t ∈ d.distinctTags, t.name.value = name) ↔ d.HasElement name := by
  unfold distinctTags HasElement
  rw [exists_mem_firstByName]
  constructor
  · rintro ⟨-, t, ht, rfl⟩
    obtain ⟨s, children, h⟩ := mem_tags.1 ht
    exact ⟨t, s, children, h, rfl⟩
  · rintro ⟨t, s, children, h, rfl⟩
    exact ⟨List.not_mem_nil, t, mem_tags.2 ⟨s, children, h⟩, rfl⟩

end MiniProgram.Markup
