/-
Manifests: the project manifest, which lists the entry pages, and the metadata file of a component,
which declares the aliases it uses. Both are JSON texts of which other keys are passed over.
-/
import MiniProgram.Failure
import MiniProgram.Json.Read
import MiniProgram.OrderedMap
import MiniProgram.Text.Blank

namespace MiniProgram

open Data Text

namespace Manifest

/-- What a project manifest may hold. -/
def projectSchema : Schema := .record "AppManifest" [("pages", .optional (.list .text))]

/-- What a metadata file may hold. -/
def metadataSchema : Schema := .record "ComponentManifest" [("usingComponents", .table .text)]

/-- The entry pages that the project manifest at `path` lists. -/
def pages (path : FilePath) (source : String) : Except Failure (List String) :=
  match Json.read projectSchema source with
  | .error f => .error (.manifest path source f)
  | .ok v =>
    match (v.field? "pages").bind Value.asList? with
    | some pages => .ok (pages.filterMap Value.asText?)
    | none => .error (.project (.noPages path))

/-- Aliases and the targets they stand for. -/
abbrev Aliases := OrderedMap String String

/-- The aliases that a decoded metadata file declares; a repeated alias takes its last target. -/
def aliasesOf (v : Value) : Aliases :=
  .ofList (((v.field? "usingComponents").getD .null).entries.filterMap fun (name, target) =>
    target.asText?.map fun t => (name, t))

/-- The aliases that the metadata file at `path` declares. A file of white space declares none. -/
def aliases (path : FilePath) (source : String) : Except Failure Aliases :=
  if source.toList.all isWhite then .ok .empty
  else match Json.read metadataSchema source with
    | .error f => .error (.manifest path source f)
    | .ok v => .ok (aliasesOf v)

end Manifest

end MiniProgram
