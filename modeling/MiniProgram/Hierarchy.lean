/-
The hierarchy: a tree that shows what each entry page contains. A component appears once for every
way it is reached, and is not opened again below itself.
-/
import MiniProgram.Color.Basic
import MiniProgram.Component
import MiniProgram.Counting
import MiniProgram.Naming

namespace MiniProgram

/-- What is shown of one place in the hierarchy. -/
structure Placement where
  name : String
  /-- The component, or none at the root. -/
  path : Option LogicalPath
  depth : Nat
  /-- Which entry page this belongs to. -/
  page : Option Nat
  /-- Whether it is a package. -/
  external : Bool
  /-- The colour of the page, unless highlighted. -/
  color : Option Color
  /-- Whether the component already contains this place. -/
  recursive : Bool
deriving DecidableEq

/-- A tree of placements. -/
inductive Hierarchy where
  | node (placement : Placement) (children : List Hierarchy)

namespace Hierarchy

def placement : Hierarchy → Placement
  | node p _ => p

def children : Hierarchy → List Hierarchy
  | node _ cs => cs

mutual
/-- The trees below and including this one, parents first, siblings in order. -/
def preorder : Hierarchy → List Hierarchy
  | node p cs => node p cs :: preorderAll cs
/-- The trees of a forest. -/
def preorderAll : List Hierarchy → List Hierarchy
  | [] => []
  | t :: ts => preorder t ++ preorderAll ts
end

mutual
/-- The number of places in a tree. -/
def count : Hierarchy → Nat
  | node _ cs => countAll cs + 1
/-- The number of places in a forest. -/
def countAll : List Hierarchy → Nat
  | [] => 0
  | t :: ts => count t + countAll ts
end

theorem countAll_append (xs ys : List Hierarchy) :
    countAll (xs ++ ys) = countAll xs + countAll ys := by
  induction xs with
  | nil => simp [countAll]
  | cons t ts ih => simp [countAll, ih, Nat.add_assoc]

/-- Visit the trees on a stack: take the top one, then put its children on top. -/
def visit (stack : List Hierarchy) : List Hierarchy :=
  match stack with
  | [] => []
  | node p cs :: rest => node p cs :: visit (cs ++ rest)
termination_by countAll stack
decreasing_by simp only [countAll_append, countAll, count]; omega

/-- This tree and all below it, parents first. -/
def toList (t : Hierarchy) : List Hierarchy := visit [t]

end Hierarchy

/-! ## Building -/

/-- What a hierarchy is made from. -/
structure Outline where
  components : ComponentMap
  layout : Layout
  /-- The colours of the pages, in turn; none leaves the pages without colour. -/
  palette : List Color
  /-- The components or directories that lose their colour, with all below them. -/
  highlights : List LogicalPath

namespace Outline

def isHighlighted (o : Outline) (p : LogicalPath) : Bool :=
  o.highlights.any fun h => p.isUnder h.text

/-- The colour of the page with this number. -/
def pageColor (o : Outline) (page : Nat) : Option Color := o.palette[page % o.palette.length]?

/-- The known components that are not among `ancestors`. -/
def unopened (o : Outline) (ancestors : List LogicalPath) : Nat :=
  o.components.keys.countP fun p => !decide (p ∈ ancestors)

theorem unopened_cons_lt {o : Outline} {ancestors : List LogicalPath} {p : LogicalPath}
    (hp : p ∈ o.components.keys) (hnot : p ∉ ancestors) :
    o.unopened (p :: ancestors) < o.unopened ancestors :=
  countP_lt_countP (fun a ha => by
      simp only [Bool.not_eq_true', decide_eq_false_iff_not, List.mem_cons, not_or] at ha ⊢
      exact ha.2)
    hp (by simpa using hnot) (by simp)

/-- What is shown of the component `p`. -/
def placement (o : Outline) (p : LogicalPath) (depth page : Nat) (color : Option Color)
    (recursive : Bool) : Placement :=
  ⟨p.displayName o.layout, some p, depth, some page, p.isUnder o.layout.registryDir, color,
    recursive⟩

/-- The tree below a component that is reached through `ancestors`. -/
def tree (o : Outline) (p : LogicalPath) (depth page : Nat) (inherited : Option Color)
    (ancestors : List LogicalPath) : Hierarchy :=
  let color := if o.isHighlighted p then none else inherited
  if _hrec : p ∈ ancestors then .node (o.placement p depth page color true) []
  else
    match _hfind : o.components.find? p with
    | none => .node (o.placement p depth page color false) []
    | some component =>
      .node (o.placement p depth page color false)
        (component.targets.map fun t => o.tree t (depth + 1) page color (p :: ancestors))
termination_by o.unopened ancestors
decreasing_by exact unopened_cons_lt (OrderedMap.mem_keys_of_find? _hfind) _hrec

/-- The hierarchy of the entry pages under a root with the given name. -/
def hierarchy (o : Outline) (rootName : String) (entries : List LogicalPath) : Hierarchy :=
  .node ⟨rootName, none, 0, none, false, none, false⟩
    (entries.mapIdx fun page p => o.tree p 1 page (o.pageColor page) [])

end Outline

end MiniProgram
