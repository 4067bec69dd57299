/-
Colours and highlights of a hierarchy. A place is addressed by the choices that lead down to it, so the
places of two hierarchies can be compared. A place has the colour of its page exactly when no place on
the way down to it, the page and itself included, is a highlight or lies below one; otherwise it has no
colour. Highlights change nothing but colours, and fewer highlights take no colour away
(`color_iff_unmarked`).
-/
import MiniProgram.Proofs.Paths
import MiniProgram.Proofs.Routes

namespace MiniProgram

/-! ## Addresses -/

namespace Hierarchy

/-- The tree that these choices lead down to. -/
def at? : Hierarchy → List Nat → Option Hierarchy
  | t, [] => some t
  | t, i :: is => t.children[i]?.bind fun c => c.at? is

mutual
/-- The tree without its colours. -/
def uncolored : Hierarchy → Hierarchy
  | node p cs => node { p with color := none } (uncoloredAll cs)
/-- The trees of a forest without their colours. -/
def uncoloredAll : List Hierarchy → List Hierarchy
  | [] => []
  | t :: ts => uncolored t :: uncoloredAll ts
end

@[simp] theorem at?_nil (t : Hierarchy) : t.at? [] = some t := by rw [at?]

theorem at?_cons_eq_some_iff {t n : Hierarchy} {i : Nat} {is : List Nat} :
    t.at? (i :: is) = some n ↔ ∃ c, t.children[i]? = some c ∧ c.at? is = some n := by
  rw [at?, Option.bind_eq_some_iff]

theorem uncoloredAll_eq_map : ∀ ts : List Hierarchy, uncoloredAll ts = ts.map uncolored
  | [] => by rw [uncoloredAll, List.map_nil]
  | t :: ts => by rw [uncoloredAll, uncoloredAll_eq_map ts, List.map_cons]

theorem uncolored_node (p : Placement) (cs : List Hierarchy) :
    (node p cs).uncolored = node { p with color := none } (cs.map uncolored) := by
  rw [uncolored, uncoloredAll_eq_map]

end Hierarchy

namespace Outline

variable {o : Outline}

/-! ## Marked places -/

/-- A place is marked when its component is a highlight or lies below one. -/
def Marks (o : Outline) (n : Hierarchy) : Prop :=
  ∃ p, n.placement.path = some p ∧ ∃ h ∈ o.highlights, h.segments <+: p.segments

/-- No place on the way down from `t` is marked, neither `t` nor the place at the address. -/
def Unmarked (o : Outline) (t : Hierarchy) (address : List Nat) : Prop :=
  ∀ js m, js <+: address → t.at? js = some m → ¬ o.Marks m

/-- The outline with other highlights. -/
def withHighlights (o : Outline) (highlights : List LogicalPath) : Outline :=
  { o with highlights := highlights }

theorem unmarked_nil_iff {t : Hierarchy} : o.Unmarked t [] ↔ ¬ o.Marks t := by
  unfold Unmarked
  constructor
  · intro h
    exact h [] t (List.prefix_refl _) t.at?_nil
  · intro h js m hjs hm
    rw [List.prefix_nil.1 hjs, Hierarchy.at?_nil, Option.some.injEq] at hm
    subst hm
    exact h

/-- The way down to a place begins with the tree and goes on from the child that is chosen first. -/
theorem unmarked_cons_iff {t c : Hierarchy} {i : Nat} {is : List Nat} (hc : t.children[i]? = some c) :
    o.Unmarked t (i :: is) ↔ ¬ o.Marks t ∧ o.Unmarked c is := by
  constructor
  · intro h
    refine ⟨h [] t List.nil_prefix t.at?_nil, fun js m hjs hm => ?_⟩
    refine h (i :: js) m ?_ (Hierarchy.at?_cons_eq_some_iff.2 ⟨c, hc, hm⟩)
    exact List.cons_prefix_cons.2 ⟨rfl, hjs⟩
  · rintro ⟨ht, h⟩ js m hjs hm
    rcases List.prefix_cons_iff.1 hjs with rfl | ⟨ks, rfl, hks⟩
    · rw [Hierarchy.at?_nil, Option.some.injEq] at hm
      subst hm
      exact ht
    · obtain ⟨c', hc', hm⟩ := Hierarchy.at?_cons_eq_some_iff.1 hm
      rw [hc, Option.some.injEq] at hc'
      subst hc'
      exact h ks m hks hm

theorem isHighlighted_iff {p : LogicalPath} :
    o.isHighlighted p = true ↔ ∃ h ∈ o.highlights, h.segments <+: p.segments := by
  unfold isHighlighted
  rw [List.any_eq_true]
  simp only [LogicalPath.isUnder_text_iff]

theorem shade_eq_some_iff {inherited : Option Color} {p : LogicalPath} {c : Color} :
    o.shade inherited p = some c ↔ inherited = some c ∧ ¬ o.isHighlighted p = true := by
  unfold shade
  by_cases hp : o.isHighlighted p = true
  · simp [hp]
  · simp [hp]

/-! ## Trees -/

section Tree

variable {p : LogicalPath} {depth page i : Nat} {inherited : Option Color} {ancestors : List LogicalPath}

theorem placement_tree : (o.tree p depth page inherited ancestors).placement =
    o.placement p depth page (o.shade inherited p) (decide (p ∈ ancestors)) := by
  rw [tree_eq]
  rfl

theorem getElem?_children_tree {t : Hierarchy} :
    (o.tree p depth page inherited ancestors).children[i]? = some t ↔
      ∃ q, (o.opened p ancestors)[i]? = some q ∧
        o.tree q (depth + 1) page (o.shade inherited p) (p :: ancestors) = t := by
  rw [tree_eq, ← Option.map_eq_some_iff, ← List.getElem?_map]
  rfl

theorem marks_tree_iff : o.Marks (o.tree p depth page inherited ancestors) ↔ o.isHighlighted p = true := by
  unfold Marks
  rw [placement_tree, isHighlighted_iff]
  constructor
  · rintro ⟨q, hq, h⟩
    cases hq
    exact h
  · intro h
    exact ⟨p, rfl, h⟩

end Tree

/-- The colour that comes from above reaches the places that are unmarked on the whole way down. -/
theorem color_tree_iff {page : Nat} {n : Hierarchy} {c : Color} : ∀ (is : List Nat) {p : LogicalPath}
    {depth : Nat} {inherited : Option Color} {ancestors : List LogicalPath},
    (o.tree p depth page inherited ancestors).at? is = some n →
      (n.placement.color = some c ↔
        inherited = some c ∧ o.Unmarked (o.tree p depth page inherited ancestors) is)
  | [], p, depth, inherited, ancestors, hn => by
    rw [Hierarchy.at?_nil, Option.some.injEq] at hn
    subst hn
    rw [placement_tree, unmarked_nil_iff, marks_tree_iff, ← shade_eq_some_iff]
    rfl
  | i :: is, p, depth, inherited, ancestors, hn => by
    obtain ⟨child, hchild, hn⟩ := Hierarchy.at?_cons_eq_some_iff.1 hn
    rw [unmarked_cons_iff hchild, marks_tree_iff]
    obtain ⟨q, -, rfl⟩ := getElem?_children_tree.1 hchild
    -- the child is given what the component passes on, and that is nothing if it is highlighted
    rw [color_tree_iff is hn, shade_eq_some_iff, and_assoc]

/-- Highlights do not show in a tree without its colours. -/
theorem uncolored_tree (others : List LogicalPath) (p : LogicalPath) (depth page : Nat)
    (inherited inherited' : Option Color) (ancestors : List LogicalPath) :
    ((o.withHighlights others).tree p depth page inherited' ancestors).uncolored =
      (o.tree p depth page inherited ancestors).uncolored := by
  induction p, ancestors using opened_induction (o := o) generalizing depth inherited inherited' with
  | step p ancestors ih =>
    rw [tree_eq, tree_eq o, Hierarchy.uncolored_node, Hierarchy.uncolored_node, List.map_map, List.map_map]
    refine congrArg (Hierarchy.node _) (List.map_congr_left fun q hq => ?_)
    exact ih q hq (depth + 1) (o.shade inherited p) ((o.withHighlights others).shade inherited' p)

/-- With fewer highlights a colour goes down at least as far. -/
theorem color_tree_of_subset {page : Nat} {n : Hierarchy} {c : Color} {fewer : List LogicalPath}
    (hsub : fewer ⊆ o.highlights) : ∀ (is : List Nat) {p : LogicalPath} {depth : Nat}
    {inherited inherited' : Option Color} {ancestors : List LogicalPath},
    (inherited = some c → inherited' = some c) →
      (o.tree p depth page inherited ancestors).at? is = some n → n.placement.color = some c →
        ∃ m, ((o.withHighlights fewer).tree p depth page inherited' ancestors).at? is = some m ∧
          m.placement.color = some c := by
  have hshade {inherited inherited' : Option Color} {p : LogicalPath}
      (hcolor : inherited = some c → inherited' = some c) (h : o.shade inherited p = some c) :
      (o.withHighlights fewer).shade inherited' p = some c := by
    rw [shade_eq_some_iff, isHighlighted_iff] at h ⊢
    exact ⟨hcolor h.1, fun ⟨d, hd, hp⟩ => h.2 ⟨d, hsub hd, hp⟩⟩
  intro is
  induction is with
  | nil =>
    intro p depth inherited inherited' ancestors hcolor hn hc
    rw [Hierarchy.at?_nil, Option.some.injEq] at hn
    subst hn
    rw [placement_tree] at hc
    refine ⟨_, Hierarchy.at?_nil _, ?_⟩
    rw [placement_tree]
    exact hshade hcolor hc
  | cons i is ih =>
    intro p depth inherited inherited' ancestors hcolor hn hc
    obtain ⟨child, hchild, hn⟩ := Hierarchy.at?_cons_eq_some_iff.1 hn
    obtain ⟨q, hq, rfl⟩ := getElem?_children_tree.1 hchild
    obtain ⟨m, hm, hmc⟩ := ih (hshade hcolor) hn hc
    refine ⟨m, Hierarchy.at?_cons_eq_some_iff.2 ⟨_, getElem?_children_tree.2 ⟨q, hq, rfl⟩, hm⟩, hmc⟩

/-! ## The hierarchy -/

theorem pageColor_eq_none_iff {page : Nat} : o.pageColor page = none ↔ o.palette = [] := by
  unfold pageColor
  rw [List.getElem?_eq_none_iff]
  constructor
  · intro h
    by_contra hne
    have := Nat.mod_lt page (List.length_pos_iff.2 hne)
    omega
  · intro h
    rw [h]
    exact Nat.zero_le _

theorem getElem?_children_hierarchy {rootName : String} {entries : List LogicalPath} {page : Nat}
    {t : Hierarchy} : (o.hierarchy rootName entries).children[page]? = some t ↔
      ∃ p, entries[page]? = some p ∧ o.tree p 1 page (o.pageColor page) [] = t := by
  show (entries.mapIdx _)[page]? = some t ↔ _
  rw [List.getElem?_mapIdx, Option.map_eq_some_iff]

/-- A place below an entry has the colour of the palette that is the turn of the entry exactly when there is
a palette and no place from the entry down to this one, both included, is a highlight or lies below one. In
all other cases it has no colour. Whatever the highlights are, the hierarchy is the same but for its
colours, and with fewer highlights each coloured place keeps its colour. -/
theorem color_iff_unmarked (o : Outline) (rootName : String) (entries : List LogicalPath) :
    (∀ page t, (o.hierarchy rootName entries).children[page]? = some t →
      t.placement.path = entries[page]? ∧ ∀ is n, t.at? is = some n →
        (o.palette ≠ [] ∧ o.Unmarked t is →
          ∃ c, o.palette[page % o.palette.length]? = some c ∧ n.placement.color = some c) ∧
        (¬ (o.palette ≠ [] ∧ o.Unmarked t is) → n.placement.color = none)) ∧
    (∀ others, ((o.withHighlights others).hierarchy rootName entries).uncolored =
      (o.hierarchy rootName entries).uncolored) ∧
    (∀ fewer, fewer ⊆ o.highlights → ∀ is n c, (o.hierarchy rootName entries).at? is = some n →
      n.placement.color = some c →
        ∃ m, ((o.withHighlights fewer).hierarchy rootName entries).at? is = some m ∧
          m.placement.color = some c) := by
  refine ⟨fun page t ht => ?_, fun others => ?_, fun fewer hsub is n c hn hc => ?_⟩
  · obtain ⟨p, hp, rfl⟩ := getElem?_children_hierarchy.1 ht
    refine ⟨by rw [placement_tree, hp]; rfl, fun is n hn => ⟨?_, fun hnot => ?_⟩⟩
    · rintro ⟨hpalette, hun⟩
      obtain ⟨c, hc⟩ := Option.ne_none_iff_exists'.1 (mt pageColor_eq_none_iff.1 hpalette)
      exact ⟨c, hc, (color_tree_iff is hn).2 ⟨hc, hun⟩⟩
    · rw [Option.eq_none_iff_forall_ne_some]
      intro c hc
      obtain ⟨hpage, hun⟩ := (color_tree_iff is hn).1 hc
      refine hnot ⟨fun hnil => ?_, hun⟩
      rw [pageColor_eq_none_iff.2 hnil] at hpage
      cases hpage
  · unfold hierarchy
    rw [Hierarchy.uncolored_node, Hierarchy.uncolored_node, List.mapIdx_eq_zipIdx_map,
      List.mapIdx_eq_zipIdx_map, List.map_map, List.map_map]
    refine congrArg (Hierarchy.node _) (List.map_congr_left fun e _ => ?_)
    exact uncolored_tree others e.1 1 e.2 (o.pageColor e.2) ((o.withHighlights others).pageColor e.2) []
  · cases is with
    | nil =>
      rw [Hierarchy.at?_nil, Option.some.injEq] at hn
      subst hn
      cases hc
    | cons page is =>
      obtain ⟨t, ht, hn⟩ := Hierarchy.at?_cons_eq_some_iff.1 hn
      obtain ⟨p, hp, rfl⟩ := getElem?_children_hierarchy.1 ht
      obtain ⟨m, hm, hmc⟩ := color_tree_of_subset hsub is id hn hc
      exact ⟨m, Hierarchy.at?_cons_eq_some_iff.2 ⟨_, getElem?_children_hierarchy.2 ⟨p, hp, rfl⟩, hm⟩, hmc⟩

/-- A component that uses one other component. -/
def usesOne (p q : LogicalPath) : Component := ⟨p, [⟨q.text, .component q, ⟨1, 0⟩⟩], .empty⟩

/-- Two components that use each other, the second one highlighted: the first keeps the colour of its page,
and all below the second loses it. Without highlights the second one has it too. -/
theorem color_iff_unmarked_mutual :
    let a := topLevel "a" ⟨by decide, by decide, by decide, by decide⟩
    let b := topLevel "b" ⟨by decide, by decide, by decide, by decide⟩
    let o : Outline := ⟨.ofList [(a, usesOne a b), (b, usesOne b a)], {}, [.named "red"], [b]⟩
    ∃ t n, (o.hierarchy "app" [a]).children[0]? = some t ∧ o.Unmarked t [] ∧
      t.placement.color = some (.named "red") ∧
      t.at? [0, 0] = some n ∧ ¬ o.Unmarked t [0, 0] ∧ n.placement.color = none ∧
      ([] : List LogicalPath) ⊆ o.highlights ∧
      ∃ m, ((o.withHighlights []).hierarchy "app" [a]).at? [0] = some m ∧
        m.placement.color = some (.named "red") := by
  intro a b o
  obtain ⟨hcolor, -, hfewer⟩ := color_iff_unmarked o "app" [a]
  let t := o.tree a 1 0 (o.pageColor 0) []
  have ht : (o.hierarchy "app" [a]).children[0]? = some t := getElem?_children_hierarchy.2 ⟨a, rfl, rfl⟩
  obtain ⟨n, hn⟩ : ∃ n, t.at? [0, 0] = some n := Option.isSome_iff_exists.1 (by decide +kernel)
  have hplain : o.Unmarked t [] := by
    rw [unmarked_nil_iff, marks_tree_iff]
    decide
  have hmarked : ¬ o.Unmarked t [0, 0] := by
    intro h
    have hb : (t.at? [0]).bind (·.placement.path) = some b := by decide +kernel
    obtain ⟨m, hm, hpath⟩ := Option.bind_eq_some_iff.1 hb
    exact h [0] m (by decide) hm ⟨b, hpath, b, List.mem_singleton_self b, List.prefix_refl _⟩
  obtain ⟨-, hplaces⟩ := hcolor 0 t ht
  obtain ⟨c, hc, htc⟩ := (hplaces [] t t.at?_nil).1 ⟨List.cons_ne_nil _ _, hplain⟩
  have hnc := (hplaces [0, 0] n hn).2 fun h => hmarked h.2
  cases hc
  obtain ⟨m, hm, hmc⟩ := hfewer [] (List.nil_subset _) [0] t (.named "red")
    (Hierarchy.at?_cons_eq_some_iff.2 ⟨t, ht, t.at?_nil⟩) htc
  exact ⟨t, n, ht, hplain, htc, hn, hmarked, hnc, List.nil_subset _, m, hm, hmc⟩

end Outline

end MiniProgram
