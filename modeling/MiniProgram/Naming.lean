/-
The short names that components are shown under.
-/
import MiniProgram.Config
import MiniProgram.Path.Logical

namespace MiniProgram

/-- The name of a component that is named after its directory. -/
def indexName : String := "index"

/-- The last segment of a path names the component, but an index component is named after its
directory, unless that is the directory of pages or of packages. -/
def LogicalPath.displayName (p : LogicalPath) (layout : Layout) : String :=
  if p.fileName ≠ indexName then p.fileName
  else match p.parent? with
    | some dir =>
      if dir.text = layout.pagesDir ∨ dir.text = layout.registryDir then p.fileName
      else dir.fileName
    | none => p.fileName

end MiniProgram
