/-
The usage graph: which component uses which. Built-in elements and components that were not found
have no place in it.
-/
import MiniProgram.Component
import MiniProgram.Naming

namespace MiniProgram

/-- That a component uses another. -/
structure Edge where
  source : LogicalPath
  target : LogicalPath
deriving DecidableEq

/-- A component in the graph. -/
structure Vertex where
  path : LogicalPath
  name : String
  /-- The number of edges that touch it, an edge to itself counting twice. -/
  weight : Nat
  /-- Whether it is a package. -/
  external : Bool

/-- Components and their uses of each other. -/
structure Graph where
  vertices : List Vertex
  /-- Each use once, in the order in which the edges were put in. -/
  edges : List Edge

/-- Put an edge behind the others, unless it is among them. -/
def updateEdge (edges : List Edge) (e : Edge) : List Edge :=
  if e ∈ edges then edges else edges ++ [e]

/-- Put in the edges from a component to its targets, of which those that are not known are passed
over. -/
def ComponentMap.updateEdges (components : ComponentMap) (source : LogicalPath)
    (edges : List Edge) (targets : List LogicalPath) : List Edge :=
  targets.foldl (fun edges target =>
    if components.contains target then updateEdge edges ⟨source, target⟩ else edges) edges

/-- The edges that a scan of the components puts in. -/
def ComponentMap.edges (components : ComponentMap) : List Edge :=
  components.entries.foldl (fun edges (path, component) =>
    components.updateEdges path edges component.targets) []

/-- The number of edges that touch a path. -/
def weight (edges : List Edge) (p : LogicalPath) : Nat :=
  edges.countP (·.target = p) + edges.countP (·.source = p)

/-- The graph of the components that were found. -/
def ComponentMap.graph (components : ComponentMap) (layout : Layout) : Graph :=
  let edges := components.edges
  { vertices := components.keys.map fun p =>
      ⟨p, p.displayName layout, weight edges p, p.isUnder layout.registryDir⟩
    edges }

/-- The vertex with a path, as text. -/
def Graph.vertex? (g : Graph) (path : String) : Option Vertex :=
  g.vertices.find? (·.path.text == path)

end MiniProgram
