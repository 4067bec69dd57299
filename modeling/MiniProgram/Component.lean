/-
Components as they are found: what each element of the markup refers to, and the aliases that can
be used.
-/
import MiniProgram.OrderedMap
import MiniProgram.Path.Logical
import MiniProgram.Text.Position

namespace MiniProgram

open Text

/-- What an element name refers to. -/
inductive Target where
  | builtin (name : String)
  | component (path : LogicalPath)
deriving DecidableEq

namespace Target

/-- The component that is meant, unless it is a built-in element. -/
def path? : Target → Option LogicalPath
  | builtin _ => none
  | component path => some path

def isBuiltin : Target → Bool
  | builtin _ => true
  | component _ => false

/-- A built-in element is written `builtin:name`, a component as its path. -/
def render : Target → String
  | builtin name => "builtin:" ++ name
  | component path => path.text

end Target

/-- An element name that the markup uses. -/
structure Dependency where
  name : String
  target : Target
  /-- Where the first element with this name is opened. -/
  position : Position
deriving DecidableEq

/-- A page or component. -/
structure Component where
  path : LogicalPath
  /-- The element names in order of first use. -/
  dependencies : List Dependency
  /-- The aliases that lead somewhere. -/
  definitions : OrderedMap String LogicalPath
deriving DecidableEq

namespace Component

/-- A component that could not be looked into. -/
def empty (path : LogicalPath) : Component := ⟨path, [], .empty⟩

/-- The components that this one uses, in order of first use. -/
def targets (c : Component) : List LogicalPath := c.dependencies.filterMap (·.target.path?)

end Component

/-- Components by path, in the order they were found. -/
abbrev ComponentMap := OrderedMap LogicalPath Component

end MiniProgram
