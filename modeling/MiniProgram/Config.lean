/-
The configuration of a run: how the project tree is laid out, which further elements count as
built in, and which colours pages get.
-/
import MiniProgram.Color.Read
import MiniProgram.Json.Read
import MiniProgram.Toml.Read

namespace MiniProgram

open Data

/-- The extensions of the four sibling files that make up a component. -/
structure Extensions where
  metadata : String := "json"
  logic : String := "js"
  markup : String := "axml"
  style : String := "acss"
deriving DecidableEq, Repr

/-- The extensions in the order their files are looked for. -/
def Extensions.all (e : Extensions) : List String := [e.metadata, e.logic, e.markup, e.style]

/-- How a project tree is laid out. -/
structure Layout where
  /-- The project manifest, relative to the project root. -/
  manifest : String := "app.json"
  /-- The directory of third-party packages. -/
  registryDir : String := "node_modules"
  /-- The directory of pages, which is no name for a page. -/
  pagesDir : String := "pages"
  extensions : Extensions := {}
deriving DecidableEq, Repr

/-- The colours that pages get unless others are configured. -/
def defaultPalette : List String :=
  ["#4e79a7", "#f28e2b", "#e15759", "#76b7b2", "#59a14f", "#edc948", "#b07aa1", "#ff9da7"]

/-- The configuration of a run. -/
structure Config where
  layout : Layout := {}
  /-- Elements that count as built in besides the usual ones. -/
  builtinElements : List String := []
  /-- The colours of the entry pages, in turn. -/
  palette : List String := defaultPalette
deriving DecidableEq, Repr

namespace Config

instance : Inhabited Config := ⟨{}⟩

/-- What a configuration file may hold. -/
def schema : Schema :=
  .record "AppConfig"
    [("project", .record "ProjectConfig"
        [("manifest", .text), ("registry_dir", .text), ("pages_dir", .text),
          ("extensions", .record "Extensions"
            [("metadata", .text), ("logic", .text), ("markup", .text), ("style", .text)])]),
      ("markup", .record "MarkupConfig" [("builtin_elements", .list .text)]),
      ("projection", .record "ProjectionConfig" [("palette", .list .text)])]

/-- The configuration that a file describes; what it leaves out has its usual value. -/
def ofValue (v : Value) : Config :=
  let project := (v.field? "project").getD .null
  let extensions := (project.field? "extensions").getD .null
  let markup := (v.field? "markup").getD .null
  let projection := (v.field? "projection").getD .null
  let usual : Config := {}
  let files := usual.layout.extensions
  { layout :=
      { manifest := project.textField "manifest" usual.layout.manifest
        registryDir := project.textField "registry_dir" usual.layout.registryDir
        pagesDir := project.textField "pages_dir" usual.layout.pagesDir
        extensions :=
          { metadata := extensions.textField "metadata" files.metadata
            logic := extensions.textField "logic" files.logic
            markup := extensions.textField "markup" files.markup
            style := extensions.textField "style" files.style } }
    builtinElements := markup.textsField "builtin_elements" usual.builtinElements
    palette := projection.textsField "palette" usual.palette }

/-- The configuration that a JSON text describes. -/
def ofJson (source : String) : Except Json.Fault Config := (Json.read schema source).map ofValue

/-- The configuration that a TOML text describes. -/
def ofToml (source : String) : Except Toml.Fault Config := (Toml.read schema source).map ofValue

end Config

/-- A text in a palette that is not a colour. -/
structure PaletteFault where
  entry : String
  fault : Color.Fault
deriving DecidableEq, Repr

/-- Read a palette, refusing its first entry that is not a colour. -/
def readPalette (entries : List String) (reader : Color.Reader := Color.read) :
    Except PaletteFault (List Color) :=
  entries.mapM fun entry =>
    match reader entry with
    | .ok c => .ok c
    | .error f => .error ⟨entry, f⟩

/-- The usual palette is one. -/
theorem exists_readPalette_default : ∃ palette, readPalette defaultPalette = .ok palette := by
  cases h : readPalette defaultPalette with
  | ok palette => exact ⟨palette, rfl⟩
  | error fault =>
    have hok : (readPalette defaultPalette).isOk = true := by decide +kernel
    rw [h] at hok
    cases hok

/-- The message about a text that is not a colour. -/
def invalidColor (entry : String) (f : Color.Fault) : String :=
  "invalid color `" ++ entry ++ "`: " ++ f.message

def PaletteFault.message (f : PaletteFault) : String :=
  "Invalid palette in config: " ++ invalidColor f.entry f.fault

end MiniProgram
