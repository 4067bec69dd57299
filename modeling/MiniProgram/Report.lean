/-
Checking a project, and the report of a check: the components that were found, the defects, and the
views of them, which can be written as one JSON document.
-/
import MiniProgram.Graph
import MiniProgram.Hierarchy
import MiniProgram.Json.Write
import MiniProgram.Orphan
import MiniProgram.Resolution

namespace MiniProgram

open Json (Tree)

/-- What came of a check. -/
structure Report where
  root : FilePath
  /-- The entry pages in the order of the manifest. -/
  entries : List LogicalPath
  components : ComponentMap
  ledger : Ledger
  palette : List Color
  layout : Layout

/-- The entry pages of a project manifest as paths. -/
def entryPaths (pages : List String) : Except Failure (List LogicalPath) :=
  pages.mapM fun page =>
    match LogicalPath.ofString? page with
    | some p => .ok p
    | none => .error (.project (.badPage page))

/-- The text of the project manifest. -/
def readManifest (fs : FileSystem) (path : FilePath) : Except Failure String :=
  if fs.isFile path then fs.read path else .error (.project (.noManifest path))

/-- Check the project at `root`: read its manifest, find all components that the pages reach, and
look for orphans. Which texts are colours, and of what, is left to `reader`. -/
def check (config : Config) (fs : FileSystem) (root : FilePath)
    (reader : Color.Reader := Color.read) : Except Failure Report := do
  let palette ← match readPalette config.palette reader with
    | .ok colors => pure colors
    | .error fault => throw (.config (.palette fault))
  let manifest := root.join (.ofString config.layout.manifest)
  let pages ← Manifest.pages manifest (← readManifest fs manifest)
  let entries ← entryPaths pages
  let project : Project := ⟨fs, root, config.layout, ⟨config.builtinElements⟩⟩
  let found ← project.resolve entries
  let orphans ← project.orphans found.components
  return { root, entries, palette
           components := found.components
           ledger := found.ledger.recordOrphans orphans config.layout.extensions.markup
           layout := config.layout }

namespace Report

def isClean (r : Report) : Bool := r.ledger.isClean

/-- The hierarchy of the pages, under the name of the project directory. -/
def hierarchy (r : Report) (highlights : List LogicalPath) : Hierarchy :=
  Outline.hierarchy ⟨r.components, r.layout, r.palette, highlights⟩ r.root.displayName r.entries

def graph (r : Report) : Graph := r.components.graph r.layout

end Report

/-! ## As a document -/

mutual
/-- The document of a hierarchy. -/
def Hierarchy.document : Hierarchy → Tree
  | node p children => .object
    [("name", .text p.name), ("path", .ofText? (p.path.map (·.text))), ("depth", .number p.depth),
      ("page", .ofNumber? p.page), ("external", .bool p.external),
      ("color", .ofText? (p.color.map (·.render))), ("recursive", .bool p.recursive),
      ("children", .list (documents children))]
/-- The documents of a forest. -/
def Hierarchy.documents : List Hierarchy → List Tree
  | [] => []
  | t :: ts => t.document :: documents ts
end

def Graph.document (g : Graph) : Tree := .object
  [("nodes", .list (g.vertices.map fun v => .object
      [("path", .text v.path.text), ("name", .text v.name), ("weight", .number v.weight),
        ("external", .bool v.external)])),
    ("edges", .list (g.edges.map fun e => .object
      [("source", .text e.source.text), ("target", .text e.target.text)]))]

def Label.document (l : Label) : Tree := .object
  [("span", .object [("start", .number l.span.start), ("end", .number l.span.stop)]),
    ("message", .text l.message), ("primary", .bool l.primary)]

/-- The document of a record; labels and advice are left out where there are none. -/
def Record.document (r : Record) : Tree := .object
  ([("kind", .text r.kind.render), ("severity", .text r.severity.render),
      ("message", .text r.message), ("file", .ofText? r.file),
      ("position", match r.position with
        | some p => .object [("line", .number p.line), ("column", .number p.column)]
        | none => .null),
      ("excerpt", .ofText? r.excerpt)] ++
    (if r.labels.isEmpty then [] else [("labels", .list (r.labels.map Label.document))]) ++
    (match r.help with
      | some help => [("help", .text help)]
      | none => []))

def Bucket.document (b : Bucket) : Tree :=
  .object (b.entries.map fun (key, records) => (key, .list (records.map Record.document)))

def Ledger.document (l : Ledger) : Tree :=
  .object [("fatal", l.fatal.document), ("warning", l.warning.document)]

namespace Report

/-- The hierarchy, the graph and the defects as one document. -/
def document (r : Report) (highlights : List LogicalPath) : Tree := .object
  [("hierarchy", (r.hierarchy highlights).document), ("graph", r.graph.document),
    ("errors", r.ledger.document)]

end Report

end MiniProgram
