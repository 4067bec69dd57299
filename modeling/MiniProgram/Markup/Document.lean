/-
Markup documents. A document is a forest of elements, texts and comments. Its nodes are listed in
document order, parents before children, by a walk that keeps the siblings still to be visited on a
stack; `preorder` gives the same order by recursion on the tree.
-/
import MiniProgram.Text.Span

namespace MiniProgram.Markup

open Text

/-- An attribute of an opening tag. -/
structure Attribute where
  name : Located String
  /-- The value without its quotes; none for an attribute that is only named. -/
  value : Option (Located String)
  span : Span
deriving DecidableEq, Repr

/-- The opening tag of an element. -/
structure Tag where
  name : Located String
  /-- From the `<` to the end of the tag. -/
  span : Span
  attributes : List Attribute
  selfClosing : Bool
deriving DecidableEq, Repr

/-- A node of a document. -/
inductive Node where
  | element (tag : Tag) (span : Span) (children : List Node)
  | text (value : String) (span : Span)
  | comment (value : String) (span : Span)
deriving Repr

/-- A forest of top-level nodes. -/
structure Document where
  nodes : List Node
deriving Repr

namespace Tag

/-- The first attribute of this name. -/
def attribute? (t : Tag) (name : String) : Option Attribute :=
  t.attributes.find? (·.name.value == name)

end Tag

namespace Node

/-- The bytes a node covers, with its children and its closing tag. -/
def span : Node → Span
  | element _ s _ | text _ s | comment _ s => s

def tag? : Node → Option Tag
  | element t _ _ => some t
  | _ => none

mutual
/-- The nodes of a tree with their depth, parents first, siblings in order. -/
def preorder (depth : Nat) : Node → List (Nat × Node)
  | element t s children => (depth, element t s children) :: preorderAll (depth + 1) children
  | text v s => [(depth, text v s)]
  | comment v s => [(depth, comment v s)]
/-- The nodes of a forest with their depth. -/
def preorderAll (depth : Nat) : List Node → List (Nat × Node)
  | [] => []
  | n :: ns => preorder depth n ++ preorderAll depth ns
end

mutual
/-- The number of nodes of a tree. -/
def count : Node → Nat
  | element _ _ children => countAll children + 1
  | text _ _ => 1
  | comment _ _ => 1
/-- The number of nodes of a forest. -/
def countAll : List Node → Nat
  | [] => 0
  | n :: ns => count n + countAll ns
end

end Node

/-! ## Walks -/

/-- The lists of siblings still to be visited, the innermost first. -/
abbrev Walk := List (List Node)

namespace Walk

/-- The next node, and the walk that goes on with its children. -/
def next? : Walk → Option (Node × Walk)
  | [] => none
  | [] :: outer => next? outer
  | (n :: siblings) :: outer =>
    match n with
    | .element t s children => some (.element t s children, children :: siblings :: outer)
    | .text v s => some (.text v s, siblings :: outer)
    | .comment v s => some (.comment v s, siblings :: outer)

/-- The number of nodes still to be visited. -/
def size : Walk → Nat
  | [] => 0
  | level :: outer => Node.countAll level + size outer

theorem next?_size {w w' : Walk} {n : Node} (h : next? w = some (n, w')) :
    w'.size < w.size := by
  fun_induction next? w with
  | case1 => simp at h
  | case2 outer ih => simpa [size, Node.countAll] using ih h
  | case3 =>
    simp only [Option.some.injEq, Prod.mk.injEq] at h
    simp only [← h.2, size, Node.countAll, Node.count]; omega
  | case4 =>
    simp only [Option.some.injEq, Prod.mk.injEq] at h
    simp only [← h.2, size, Node.countAll, Node.count]; omega
  | case5 =>
    simp only [Option.some.injEq, Prod.mk.injEq] at h
    simp only [← h.2, size, Node.countAll, Node.count]; omega

/-- The nodes that a walk visits. -/
def toList (w : Walk) : List Node :=
  match _h : next? w with
  | none => []
  | some (n, w') => n :: toList w'
termination_by w.size
decreasing_by exact next?_size _h

end Walk

namespace Document

/-- Every node in document order. -/
def descendants (d : Document) : List Node := Walk.toList [d.nodes]

/-- The opening tag of every element in document order. -/
def tags (d : Document) : List Tag := d.descendants.filterMap Node.tag?

end Document

/-- The tags whose name is not among `seen` and does not occur earlier in the list. -/
def firstByName (seen : List String) : List Tag → List Tag
  | [] => []
  | t :: ts =>
    if t.name.value ∈ seen then firstByName seen ts
    else t :: firstByName (t.name.value :: seen) ts

/-- The first tag of each element name, in document order. -/
def Document.distinctTags (d : Document) : List Tag := firstByName [] d.tags

end MiniProgram.Markup
