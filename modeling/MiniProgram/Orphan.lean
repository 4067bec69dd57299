/-
Orphans: markup files that no entry page reaches.
-/
import MiniProgram.Component
import MiniProgram.Ledger
import MiniProgram.Project

namespace MiniProgram

/-- The components that have a markup file outside the registry directory and were not found, in
the order of the listing. -/
def Project.orphans (project : Project) (components : ComponentMap) :
    Except Failure (List LogicalPath) :=
  (project.fs.list project.root [project.layout.registryDir]).map fun files =>
    (files.filterMap fun file => LogicalPath.ofFile? file project.layout.extensions.markup).filter
      fun p => !components.contains p

/-- The key that so many orphans are filed under. -/
def orphanKey (count : Nat) : String := toString count ++ " extraneous components are found"

/-- The record of one orphan. -/
def orphanRecord (markupExtension : String) (p : LogicalPath) : Record :=
  (Record.new .e304 ("Orphan component: `" ++ p.text ++ "`")).inFile
    (p.withExtension markupExtension)

/-- File the orphans under one key. -/
def Ledger.recordOrphans (l : Ledger) (orphans : List LogicalPath) (markupExtension : String) :
    Ledger :=
  l.recordAll (orphanKey orphans.length) (orphans.map (orphanRecord markupExtension))

end MiniProgram
