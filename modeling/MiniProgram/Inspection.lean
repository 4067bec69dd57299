/-
Looking into one component: its files, its aliases, its markup. Defects become records; only a file
that is there and cannot be used stops the inspection.
-/
import MiniProgram.Component
import MiniProgram.Ledger
import MiniProgram.Manifest
import MiniProgram.Markup.Interpolation
import MiniProgram.Markup.Parse
import MiniProgram.Project

namespace MiniProgram

open Text Markup

/-- What was found out about a component. -/
structure Inspection where
  component : Component
  /-- The defects, in the order they were found. -/
  records : List Record

/-- A file of a component: its name for messages, and its text. -/
structure SourceFile where
  name : String
  text : String

namespace Project

/-! ## Files -/

/-- The first of the four files that is missing, by its extension. -/
def missing? (project : Project) (p : LogicalPath) : Option String :=
  project.layout.extensions.all.find? fun ext => !project.isFile p ext

def missingRecord (project : Project) (p : LogicalPath) (ext : String) : Record :=
  let file := p.withExtension ext
  ((Record.new .e300 ("Expect file: `" ++ file ++ "`")).inFile file).withHelp
    ("a component needs all of its `." ++ "`, `.".intercalate project.layout.extensions.all ++
      "` files")

/-- Read a file of a component. -/
def readFile (project : Project) (p : LogicalPath) (ext : String) : Except Failure SourceFile :=
  (project.fs.read (project.file p ext)).map fun text => ⟨p.withExtension ext, text⟩

end Project

/-! ## Aliases -/

/-- Place a record at the key that declares an alias, if it can be found. -/
def Record.atAlias (r : Record) (metadata : SourceFile) (name label : String) : Record :=
  match aliasKey? metadata.text name with
  | some span => (r.locatedAt metadata.name metadata.text span.start).withLabel span label
  | none => r.inFile metadata.name

namespace Project

def unresolvedRecord (project : Project) (metadata : SourceFile) (name target : String) : Record :=
  ((Record.new .e301
      ("Cannot resolve component `" ++ name ++ "`: `" ++ target ++ "` does not exist")).withHelp
    ("`/` paths start at the project root, `./` and `../` at this component, anything else under `"
      ++ project.layout.registryDir ++ "/`")).atAlias metadata name "target not found"

/-- The aliases that lead somewhere. -/
def definitions (project : Project) (p : LogicalPath) (aliases : Manifest.Aliases) :
    OrderedMap String LogicalPath :=
  aliases.filterMap fun _ target => project.resolveAlias? p target

/-- The records of the aliases that lead nowhere. -/
def unresolved (project : Project) (p : LogicalPath) (metadata : SourceFile)
    (aliases : Manifest.Aliases) : List Record :=
  aliases.entries.filterMap fun (name, target) =>
    if (project.resolveAlias? p target).isSome then none
    else some (project.unresolvedRecord metadata name target)

end Project

/-! ## Markup -/

/-- The records of what is wrong with the markup itself. -/
def markupRecords (markup : SourceFile) (parsed : Parsed) : List Record :=
  (parsed.diagnostics ++ parsed.document.unbalanced).map fun d =>
    Record.ofDiagnostic d markup.name markup.text

/-- What an element name refers to: built-in elements come before aliases. -/
def Vocabulary.target? (v : Vocabulary) (definitions : OrderedMap String LogicalPath)
    (name : String) : Option Target :=
  if v.contains name then some (.builtin name) else (definitions.find? name).map .component

def undefinedRecord (metadata markup : SourceFile) (tag : Tag) : Record :=
  let name := tag.name.value
  (((Record.new .e302 ("Undefined component: `" ++ name ++ "`")).locatedAt
      markup.name markup.text tag.span.start).withLabel tag.name.span
        "not built in and not declared").withHelp
    ("declare `" ++ name ++ "` under `usingComponents` in `" ++ metadata.name ++ "`")

/-- The dependency of a tag, if its name refers to something. -/
def dependency? (v : Vocabulary) (definitions : OrderedMap String LogicalPath)
    (markup : SourceFile) (tag : Tag) : Option Dependency :=
  (v.target? definitions tag.name.value).map fun target =>
    ⟨tag.name.value, target, lineColumn markup.text tag.span.start⟩

def unusedRecord (metadata : SourceFile) (name : String) : Record :=
  ((Record.new .e303 ("Unused definition: `" ++ name ++ "`")).withHelp
    "remove the declaration or use the component in the markup").atAlias metadata name
      "never used in the markup"

/-- The aliases that no element uses. -/
def unusedAliases (definitions : OrderedMap String LogicalPath) (dependencies : List Dependency) :
    List String :=
  definitions.keys.filter fun name =>
    !dependencies.any fun d => d.name == name && !d.target.isBuiltin

/-- Put together what is known once both files are read. -/
def Project.examine (project : Project) (p : LogicalPath) (metadata markup : SourceFile)
    (aliases : Manifest.Aliases) : Inspection :=
  let definitions := project.definitions p aliases
  let parsed := parse markup.text
  let tags := parsed.document.distinctTags
  let undefinedTags := tags.filter fun t =>
    (project.vocabulary.target? definitions t.name.value).isNone
  let dependencies := tags.filterMap (dependency? project.vocabulary definitions markup)
  { component := ⟨p, dependencies, definitions⟩
    records := project.unresolved p metadata aliases ++ markupRecords markup parsed ++
      undefinedTags.map (undefinedRecord metadata markup) ++
      (unusedAliases definitions dependencies).map (unusedRecord metadata) }

/-- Look into a component. -/
def Project.inspect (project : Project) (p : LogicalPath) : Except Failure Inspection :=
  match project.missing? p with
  | some ext => .ok ⟨.empty p, [project.missingRecord p ext]⟩
  | none => do
    let extensions := project.layout.extensions
    let metadata ← project.readFile p extensions.metadata
    let aliases ← Manifest.aliases (project.file p extensions.metadata) metadata.text
    let markup ← project.readFile p extensions.markup
    return project.examine p metadata markup aliases

/-! ## What a component uses is there -/

/-- A component that an element name refers to is the meaning of an alias. -/
theorem mem_definitions_of_target? {v : Vocabulary} {definitions : OrderedMap String LogicalPath}
    {name : String} {path : LogicalPath}
    (h : v.target? definitions name = some (.component path)) :
    (name, path) ∈ definitions.entries := by
  unfold Vocabulary.target? at h
  split at h
  · simp at h
  · obtain ⟨q, hq, h⟩ := Option.map_eq_some_iff.1 h
    rw [Target.component.injEq] at h
    exact OrderedMap.mem_entries_of_find? (h ▸ hq)

/-- The components that an examined component uses have metadata files. -/
theorem Project.hasMetadata_of_mem_targets_examine {project : Project} {p q : LogicalPath}
    {metadata markup : SourceFile} {aliases : Manifest.Aliases}
    (h : q ∈ (project.examine p metadata markup aliases).component.targets) :
    project.hasMetadata q = true := by
  simp only [examine, Component.targets, List.mem_filterMap] at h
  obtain ⟨d, ⟨tag, _, hd⟩, hq⟩ := h
  obtain ⟨target, ht, rfl⟩ := Option.map_eq_some_iff.1 hd
  cases target with
  | builtin name => simp [Target.path?] at hq
  | component path =>
    simp only [Target.path?, Option.some.injEq] at hq
    subst hq
    obtain ⟨e, _, he⟩ := List.mem_filterMap.1 (mem_definitions_of_target? ht)
    obtain ⟨r, hr, he⟩ := Option.map_eq_some_iff.1 he
    rw [Prod.mk.injEq] at he
    exact hasMetadata_of_resolveAlias? (he.2 ▸ hr)

/-- The components that a component uses have metadata files. -/
theorem Project.hasMetadata_of_mem_targets {project : Project} {p q : LogicalPath}
    {found : Inspection} (h : project.inspect p = .ok found) (hq : q ∈ found.component.targets) :
    project.hasMetadata q = true := by
  unfold inspect at h
  split at h
  · rw [Except.ok.injEq] at h
    subst h
    simp [Component.targets, Component.empty] at hq
  · simp only [bind, Except.bind] at h
    repeat' split at h
    all_goals first
      | (simp only [pure, Except.pure, Except.ok.injEq] at h; subst h
         exact hasMetadata_of_mem_targets_examine hq)
      | simp at h

end MiniProgram
