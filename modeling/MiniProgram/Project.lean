/-
A project tree and how to find one's way in it: where the files of a component are, what an alias
refers to, and where an alias is declared in a metadata file.
-/
import MiniProgram.FileSystem.Basic
import MiniProgram.Naming
import MiniProgram.Text.Blank
import MiniProgram.Text.Span
import MiniProgram.Vocabulary

namespace MiniProgram

open Text

/-- A project tree with its layout and vocabulary. -/
structure Project where
  fs : FileSystem
  root : FilePath
  layout : Layout
  vocabulary : Vocabulary

namespace Project

/-- The place of a sibling file of a component. -/
def file (project : Project) (p : LogicalPath) (ext : String) : FilePath := p.file project.root ext

def isFile (project : Project) (p : LogicalPath) (ext : String) : Bool :=
  project.fs.isFile (project.file p ext)

/-- Whether the metadata file of a component is there. -/
def hasMetadata (project : Project) (p : LogicalPath) : Bool :=
  project.isFile p project.layout.extensions.metadata

/-! ## Aliases -/

/-- A target without the extension of a metadata or a markup file. -/
def stem (project : Project) (target : String) : String :=
  let extensions := project.layout.extensions
  match [extensions.metadata, extensions.markup].findSome? fun ext =>
    dropExtension? ext.toList target.toList with
  | some stem => String.ofList stem
  | none => target

/-- How a target is addressed. -/
inductive Addressing where
  /-- From the directory of the component that declares it. -/
  | relative
  /-- From the project root. -/
  | rooted
  /-- A package under the registry directory. -/
  | package
deriving DecidableEq

/-- Targets that start with `./` or `../` are relative, those that start with `/` are rooted. -/
def addressing (target : String) : Addressing :=
  match target.toList with
  | '.' :: '/' :: _ => .relative
  | '.' :: '.' :: '/' :: _ => .relative
  | '/' :: _ => .rooted
  | _ => .package

/-- The path that a target without extension stands for, before any file is looked for. A package
may not climb out of its directory. -/
def candidate? (project : Project) (source : LogicalPath) (target : String) : Option LogicalPath :=
  match addressing target with
  | .relative => source.resolve? target
  | .rooted => LogicalPath.ofString? target
  | .package =>
    if ".." ∈ pathPieces target then none
    else LogicalPath.ofString? (project.layout.registryDir ++ "/" ++ target)

/-- The path, if its metadata file is there. -/
def existing? (project : Project) (p : LogicalPath) : Option LogicalPath :=
  if project.hasMetadata p then some p else none

/-- What an alias target declared by `source` refers to. Its metadata file must be there; a package
may stand for its index component. -/
def resolveAlias? (project : Project) (source : LogicalPath) (target : String) :
    Option LogicalPath :=
  let target := project.stem target
  (project.candidate? source target).bind fun p =>
    (project.existing? p).or
      (match addressing target with
        | .package => (p.join? indexName).bind project.existing?
        | _ => none)

theorem hasMetadata_of_existing? {project : Project} {p q : LogicalPath}
    (h : project.existing? p = some q) : project.hasMetadata q = true := by
  unfold existing? at h
  split at h
  · next hp => rw [Option.some.injEq] at h; exact h ▸ hp
  · simp at h

/-- An alias refers only to a component whose metadata file is there. -/
theorem hasMetadata_of_resolveAlias? {project : Project} {source p : LogicalPath} {target : String}
    (h : project.resolveAlias? source target = some p) : project.hasMetadata p = true := by
  unfold resolveAlias? at h
  obtain ⟨q, _, h⟩ := Option.bind_eq_some_iff.1 h
  rcases Option.or_eq_some_iff.1 h with h | ⟨_, h⟩
  · exact hasMetadata_of_existing? h
  · split at h
    · obtain ⟨r, _, h⟩ := Option.bind_eq_some_iff.1 h
      exact hasMetadata_of_existing? h
    · simp at h

end Project

/-! ## Where an alias is declared -/

theorem length_dropLeading?_le {α : Type} [DecidableEq α] {lead cs rest : List α}
    (h : dropLeading? lead cs = some rest) : rest.length ≤ cs.length := by
  fun_induction dropLeading? lead cs with
  | case1 cs => rw [Option.some.injEq] at h; exact h ▸ Nat.le_refl _
  | case2 => simp at h
  | case3 l ls cs ih => exact Nat.le_succ_of_le (ih h)
  | case4 => simp at h

/-- The first place where `needle` occurs: its offset, and the text from there on. -/
def occurrence? (needle : List Char) (offset : Nat) (cs : List Char) : Option (Nat × List Char) :=
  if (dropLeading? needle cs).isSome then some (offset, cs)
  else match cs with
    | [] => none
    | c :: cs => occurrence? needle (offset + c.utf8Size) cs

/-- The first place where `name` stands between quotes before a colon. A place that was looked at
is not looked into again. -/
def keySpan? (name : List Char) (offset : Nat) (cs : List Char) : Option Span :=
  match cs with
  | [] => none
  | c :: rest =>
    match h : if c = '"' then dropLeading? (name ++ ['"']) rest else none with
    | none => keySpan? name (offset + c.utf8Size) rest
    | some after =>
      have : after.length < (c :: rest).length := by
        split at h
        · exact Nat.lt_succ_of_le (length_dropLeading?_le h)
        · simp at h
      let stop := offset + byteLength name + 2
      if (after.dropWhile isWhite).head? = some ':' then some (.ofBounds offset stop)
      else keySpan? name stop after
termination_by cs.length
decreasing_by all_goals simp only [List.length_cons] at *; omega

/-- The key of the alias table in a metadata file, with its quotes. -/
def tableKey : List Char := "\"usingComponents\"".toList

/-- The quoted key that declares an alias, from the alias table on if there is one. -/
def aliasKey? (source name : String) : Option Span :=
  let (offset, cs) := (occurrence? tableKey 0 source.toList).getD (0, source.toList)
  keySpan? name.toList offset cs

end MiniProgram
