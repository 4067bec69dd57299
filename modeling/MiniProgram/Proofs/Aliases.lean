/-
Where aliases may lead. An alias leads to a component inside the root whose metadata file is there, and
a package never out of the registry directory, whatever its target is made of
(`resolveAlias?_confined`). The ways to write a target agree (`addressing_modes_agree`): a relative
target means what the rooted one means that spells out the directory, and the extensions of metadata and
markup may be written or left out.

The extension is taken off before anything else is looked at. Behind a slash this goes on as if the slash
and what is before it were not there (`Project.stem_append_slash`), so it changes neither how a target is
addressed nor the way it leads, except for its last piece.
-/
import MiniProgram.Project
import MiniProgram.Proofs.Paths
import MiniProgram.Proofs.Search

namespace MiniProgram

open Text

/-! ## Extensions -/

/-- The text ends with a dot and the extension. -/
def HasExtension (ext text : String) : Prop := ∃ stem, text = stem ++ "." ++ ext

theorem hasExtension_iff {ext text : String} :
    HasExtension ext text ↔ (dropExtension? ext.toList text.toList).isSome = true := by
  rw [Option.isSome_iff_exists]
  constructor
  · rintro ⟨stem, rfl⟩
    exact ⟨stem.toList, dropExtension?_toList.2 (by rw [String.ofList_toList])⟩
  · rintro ⟨stem, h⟩
    exact ⟨String.ofList stem, dropExtension?_toList.1 h⟩

instance (ext text : String) : Decidable (HasExtension ext text) := decidable_of_iff _ hasExtension_iff.symm

/-- Of two dotted endings of one text the shorter one ends the longer one. -/
theorem eq_or_hasExtension {s t a b : String} (h : s ++ "." ++ a = t ++ "." ++ b) :
    s = t ∧ a = b ∨ HasExtension a b ∨ HasExtension b a := by
  have hlist : s.toList ++ '.' :: a.toList = t.toList ++ '.' :: b.toList := by
    simpa using congrArg String.toList h
  have hlonger : ∀ {x y : String} {more : List Char}, '.' :: x.toList = more ++ '.' :: y.toList →
      more = [] ∧ x = y ∨ HasExtension y x := by
    rintro x y (_ | ⟨c, more⟩) hmore
    · exact .inl ⟨rfl, String.toList_inj.1 (List.cons.inj hmore).2⟩
    · refine .inr ⟨String.ofList more, ?_⟩
      rw [← String.toList_inj, (List.cons.inj hmore).2]
      simp
  rcases List.append_eq_append_iff.1 hlist with ⟨more, ht, hmore⟩ | ⟨more, hs, hmore⟩
  · rcases hlonger hmore with ⟨rfl, rfl⟩ | hext
    · rw [List.append_nil] at ht
      exact .inl ⟨(String.toList_inj.1 ht).symm, rfl⟩
    · exact .inr (.inr hext)
  · rcases hlonger hmore with ⟨rfl, rfl⟩ | hext
    · rw [List.append_nil] at hs
      exact .inl ⟨String.toList_inj.1 hs, rfl⟩
    · exact .inr (.inl hext)

/-- An extension without a slash ends what is behind a slash. -/
theorem append_slash_eq_iff {lead rest stem ext : String} (hext : '/' ∉ ext.toList) :
    lead ++ "/" ++ rest = stem ++ "." ++ ext ↔
      ∃ more, stem = lead ++ "/" ++ more ∧ rest = more ++ "." ++ ext := by
  constructor
  · intro h
    have hlist : lead.toList ++ '/' :: rest.toList = stem.toList ++ '.' :: ext.toList := by
      simpa using congrArg String.toList h
    -- the slash is before the dot, since there is none in the extension
    rcases List.append_eq_append_iff.1 hlist with ⟨more, hstem, hmore⟩ | ⟨more, -, hmore⟩
    · rcases more with _ | ⟨c, more⟩
      · exact absurd (List.cons.inj hmore).1 (by decide)
      · obtain ⟨rfl, hrest⟩ := List.cons.inj hmore
        refine ⟨String.ofList more, ?_, ?_⟩
        · rw [← String.toList_inj, hstem]
          simp
        · rw [← String.toList_inj, hrest]
          simp
    · have hslash : '/' ∈ '.' :: ext.toList := by
        rw [hmore]
        simp
      simp [hext] at hslash
  · rintro ⟨more, rfl, rfl⟩
    simp [String.append_assoc]

theorem hasExtension_append_slash {lead rest ext : String} (hext : '/' ∉ ext.toList) :
    HasExtension ext (lead ++ "/" ++ rest) ↔ HasExtension ext rest := by
  constructor
  · rintro ⟨stem, h⟩
    obtain ⟨more, -, hrest⟩ := (append_slash_eq_iff hext).1 h
    exact ⟨more, hrest⟩
  · rintro ⟨more, rfl⟩
    exact ⟨_, (append_slash_eq_iff hext).2 ⟨more, rfl, rfl⟩⟩

namespace Project

variable {project : Project} {source p : LogicalPath} {target : String}

/-- The extension of metadata is taken off, else that of markup, else nothing. -/
theorem stem_cases (project : Project) (target : String) :
    target = project.stem target ++ "." ++ project.layout.extensions.metadata ∨
    ¬ HasExtension project.layout.extensions.metadata target ∧
      (target = project.stem target ++ "." ++ project.layout.extensions.markup ∨
        ¬ HasExtension project.layout.extensions.markup target ∧ project.stem target = target) := by
  have hnone : ∀ {ext : String}, dropExtension? ext.toList target.toList = none → ¬ HasExtension ext target := by
    intro ext h
    rw [hasExtension_iff, h]
    exact Bool.false_ne_true
  unfold stem
  simp only [List.findSome?_cons, List.findSome?_nil]
  cases hmeta : dropExtension? project.layout.extensions.metadata.toList target.toList with
  | some stem => exact .inl (dropExtension?_toList.1 hmeta)
  | none =>
    refine .inr ⟨hnone hmeta, ?_⟩
    cases hmarkup : dropExtension? project.layout.extensions.markup.toList target.toList with
    | some stem => exact .inl (dropExtension?_toList.1 hmarkup)
    | none => exact .inr ⟨hnone hmarkup, rfl⟩

theorem stem_of_plain (hmeta : ¬ HasExtension project.layout.extensions.metadata target)
    (hmarkup : ¬ HasExtension project.layout.extensions.markup target) : project.stem target = target := by
  rcases project.stem_cases target with h | ⟨-, h | ⟨-, h⟩⟩
  · exact absurd ⟨_, h⟩ hmeta
  · exact absurd ⟨_, h⟩ hmarkup
  · exact h

theorem stem_metadata (project : Project) (s : String) :
    project.stem (s ++ "." ++ project.layout.extensions.metadata) = s := by
  rcases project.stem_cases (s ++ "." ++ project.layout.extensions.metadata) with h | ⟨hne, -⟩
  · rw [String.append_left_inj, String.append_left_inj] at h
    exact h.symm
  · exact absurd ⟨s, rfl⟩ hne

/-- The extension of markup is taken off, unless one of the two extensions ends the other. -/
theorem stem_markup (hmeta : ¬ HasExtension project.layout.extensions.metadata project.layout.extensions.markup)
    (hmarkup : ¬ HasExtension project.layout.extensions.markup project.layout.extensions.metadata) (s : String) :
    project.stem (s ++ "." ++ project.layout.extensions.markup) = s := by
  rcases project.stem_cases (s ++ "." ++ project.layout.extensions.markup) with h | ⟨-, h | ⟨hne, -⟩⟩
  · rcases eq_or_hasExtension h with ⟨hs, -⟩ | hends | hends
    · exact hs.symm
    · exact absurd hends hmarkup
    · exact absurd hends hmeta
  · rw [String.append_left_inj, String.append_left_inj] at h
    exact h.symm
  · exact absurd ⟨s, rfl⟩ hne

/-- Taking off an extension changes nothing up to a slash. -/
theorem stem_append_slash (hmeta : '/' ∉ project.layout.extensions.metadata.toList)
    (hmarkup : '/' ∉ project.layout.extensions.markup.toList) (lead rest : String) :
    project.stem (lead ++ "/" ++ rest) = lead ++ "/" ++ project.stem rest := by
  have hinj : ∀ {ext : String}, '/' ∉ ext.toList → rest = project.stem rest ++ "." ++ ext →
      lead ++ "/" ++ rest = project.stem (lead ++ "/" ++ rest) ++ "." ++ ext →
        project.stem (lead ++ "/" ++ rest) = lead ++ "/" ++ project.stem rest := by
    intro ext hext hrest h
    obtain ⟨more, hstem, hmore⟩ := (append_slash_eq_iff hext).1 h
    have hsame := hrest.symm.trans hmore
    rw [String.append_left_inj, String.append_left_inj] at hsame
    rw [hstem, hsame]
  -- both texts have the same extensions, so the same one is taken off
  rcases project.stem_cases rest with h | ⟨hne, h | ⟨hne', h⟩⟩
  · rcases project.stem_cases (lead ++ "/" ++ rest) with h' | ⟨hno, -⟩
    · exact hinj hmeta h h'
    · exact absurd ((hasExtension_append_slash hmeta).2 ⟨_, h⟩) hno
  · rcases project.stem_cases (lead ++ "/" ++ rest) with h' | ⟨-, h' | ⟨hno, -⟩⟩
    · exact absurd ((hasExtension_append_slash hmeta).1 ⟨_, h'⟩) hne
    · exact hinj hmarkup h h'
    · exact absurd ((hasExtension_append_slash hmarkup).2 ⟨_, h⟩) hno
  · rw [h]
    refine stem_of_plain ?_ ?_
    · rwa [hasExtension_append_slash hmeta]
    · rwa [hasExtension_append_slash hmarkup]

/-! ## Addressing -/

/-- A target that starts with neither `/` nor `./` nor `../` means a package. -/
theorem addressing_eq_package_iff : addressing target = .package ↔
    (∀ rest, target ≠ "/" ++ rest) ∧ (∀ rest, target ≠ "./" ++ rest) ∧ ∀ rest, target ≠ "../" ++ rest := by
  constructor
  · intro h
    refine ⟨?_, ?_, ?_⟩ <;>
    · rintro rest rfl
      simp [addressing] at h
  · rintro ⟨hroot, hdot, hup⟩
    have hof : ∀ (lead : String) {rest : List Char}, target.toList = lead.toList ++ rest →
        target = lead ++ String.ofList rest := by
      intro lead rest h
      rw [← String.toList_inj, h]
      simp
    unfold addressing
    split
    · rename_i rest h
      exact absurd (hof "./" h) (hdot _)
    · rename_i rest h
      exact absurd (hof "../" h) (hup _)
    · rename_i rest h
      exact absurd (hof "/" h) (hroot _)
    · rfl

theorem addressing_root (rest : String) : addressing ("/" ++ rest) = .rooted := by simp [addressing]

theorem addressing_dot (rest : String) : addressing ("./" ++ rest) = .relative := by simp [addressing]

theorem addressing_up (rest : String) : addressing ("../" ++ rest) = .relative := by simp [addressing]

/-- Taking off an extension leaves a relative target relative. -/
theorem addressing_stem (hmeta : '/' ∉ project.layout.extensions.metadata.toList)
    (hmarkup : '/' ∉ project.layout.extensions.markup.toList)
    (h : ∃ rest, target = "./" ++ rest ∨ target = "../" ++ rest) :
    addressing (project.stem target) = .relative := by
  obtain ⟨rest, rfl | rfl⟩ := h
  · rw [show "./" ++ rest = "." ++ "/" ++ rest from rfl, stem_append_slash hmeta hmarkup]
    exact addressing_dot _
  · rw [show "../" ++ rest = ".." ++ "/" ++ rest from rfl, stem_append_slash hmeta hmarkup]
    exact addressing_up _

/-- What an alias that is no package refers to. -/
theorem resolveAlias?_of_ne_package (h : addressing (project.stem target) ≠ .package) :
    project.resolveAlias? source target = (project.candidate? source (project.stem target)).bind project.existing? := by
  unfold resolveAlias?
  refine Option.bind_congr fun p _ => ?_
  cases haddr : addressing (project.stem target) with
  | package => exact absurd haddr h
  | relative | rooted => exact Option.or_none

/-! ## Confinement -/

/-- The candidate for a package lies under the registry directory. -/
theorem segments_of_candidate? {r : LogicalPath} (haddr : addressing target = .package)
    (hr : LogicalPath.ofString? project.layout.registryDir = some r)
    (h : project.candidate? source target = some p) : r.segments <+: p.segments := by
  unfold candidate? at h
  rw [haddr] at h
  simp only at h
  split at h
  · cases h
  · rename_i hup
    -- following the registry directory comes to `r`, and from there the target only leads down
    have hfollow := LogicalPath.from?_eq_some_iff.1 h
    rw [pathPieces_append_slash, follow_append, LogicalPath.from?_eq_some_iff.1 hr, Option.bind_some,
      follow_of_not_mem_up hup, Option.some.injEq] at hfollow
    exact ⟨_, hfollow⟩

theorem segments_of_join_index {q : LogicalPath} (h : p.join? indexName = some q) : p.segments <+: q.segments := by
  have hfollow := LogicalPath.from?_eq_some_iff.1 h
  rw [follow_of_not_mem_up (by decide), Option.some.injEq] at hfollow
  exact ⟨_, hfollow⟩

theorem existing?_eq_some_iff {q : LogicalPath} :
    project.existing? p = some q ↔ p = q ∧ project.hasMetadata q = true := by
  unfold existing?
  split
  · rename_i hp
    rw [Option.some.injEq]
    exact ⟨fun h => ⟨h, h ▸ hp⟩, fun h => h.1⟩
  · rename_i hp
    refine iff_of_false (fun h => by cases h) ?_
    rintro ⟨rfl, h⟩
    exact hp h

/-- A package leads to its candidate or to the index component of that. -/
theorem segments_of_resolveAlias? {r : LogicalPath} (haddr : addressing (project.stem target) = .package)
    (hr : LogicalPath.ofString? project.layout.registryDir = some r)
    (h : project.resolveAlias? source target = some p) : r.segments <+: p.segments := by
  unfold resolveAlias? at h
  obtain ⟨q, hq, h⟩ := Option.bind_eq_some_iff.1 h
  have hunder := segments_of_candidate? haddr hr hq
  rcases Option.or_eq_some_iff.1 h with h | ⟨-, h⟩
  · obtain ⟨rfl, -⟩ := existing?_eq_some_iff.1 h
    exact hunder
  · rw [haddr] at h
    obtain ⟨index, hindex, h⟩ := Option.bind_eq_some_iff.1 h
    obtain ⟨rfl, -⟩ := existing?_eq_some_iff.1 h
    exact hunder.trans (segments_of_join_index hindex)

end Project

/-- What an alias refers to is a normalised path below the root whose metadata file is there; and what
starts, without its extension, with neither `/` nor `./` nor `../` stays under the registry directory. -/
theorem resolveAlias?_confined {project : Project} {source p : LogicalPath} {target : String}
    (h : project.resolveAlias? source target = some p) :
    project.fs.isFile (p.file project.root project.layout.extensions.metadata) = true ∧
    p.segments ≠ [] ∧ (∀ s ∈ p.segments, IsSegment s) ∧ LogicalPath.ofString? p.text = some p ∧
    ∀ r, LogicalPath.ofString? project.layout.registryDir = some r →
      (∀ rest, project.stem target ≠ "/" ++ rest) → (∀ rest, project.stem target ≠ "./" ++ rest) →
      (∀ rest, project.stem target ≠ "../" ++ rest) →
        p.isUnder r.text = true ∧ r.segments <+: p.segments := by
  refine ⟨Project.hasMetadata_of_resolveAlias? h, p.segments_ne_nil, p.isSegment, p.ofString?_text, ?_⟩
  intro r hr hroot hdot hup
  have haddr := Project.addressing_eq_package_iff.2 ⟨hroot, hdot, hup⟩
  have hunder := Project.segments_of_resolveAlias? haddr hr h
  exact ⟨LogicalPath.isUnder_text_iff.2 hunder, hunder⟩

/-- A package with doubled slashes, a dot and an extension stands for its index component, under a
registry directory of two segments. -/
theorem resolveAlias?_confined_index :
    let project : Project := ⟨.ofFiles [(⟨["p", "lib", "packages", "ui", "kit", "index.json"]⟩, "")] [], ⟨["p"]⟩,
      { registryDir := "/lib//packages/" }, ⟨[]⟩⟩
    ∃ p r : LogicalPath, p.segments = ["lib", "packages", "ui", "kit", "index"] ∧
      r.segments = ["lib", "packages"] ∧ LogicalPath.ofString? project.layout.registryDir = some r ∧
      project.resolveAlias? ⟨["a"], by decide, by decide⟩ "ui//./kit.json" = some p ∧
      p.isUnder r.text = true := by
  intro project
  let p : LogicalPath := ⟨["lib", "packages", "ui", "kit", "index"], by decide, by decide⟩
  let r : LogicalPath := ⟨["lib", "packages"], by decide, by decide⟩
  have hr : LogicalPath.ofString? project.layout.registryDir = some r := by decide +kernel
  have hp : project.resolveAlias? ⟨["a"], by decide, by decide⟩ "ui//./kit.json" = some p := by decide +kernel
  have haddr : Project.addressing (project.stem "ui//./kit.json") = .package := by decide +kernel
  obtain ⟨hroot, hdot, hup⟩ := Project.addressing_eq_package_iff.1 haddr
  obtain ⟨-, -, -, -, hunder⟩ := resolveAlias?_confined hp
  exact ⟨p, r, rfl, rfl, hr, hp, (hunder r hr hroot hdot hup).1⟩

/-! ## Agreement -/

namespace LogicalPath

/-- The text of the directory that holds a path; there is none for the root. -/
def directoryText (p : LogicalPath) : String := p.parent?.elim "" text

/-- The text of its directory leads to where a path is. -/
theorem follow_directoryText (p : LogicalPath) (pieces : List String) :
    follow [] (pathPieces p.directoryText ++ pieces) = follow p.directory pieces := by
  unfold directoryText parent?
  by_cases h : p.directory = []
  · rw [dif_pos h, h]
    rfl
  · rw [dif_neg h, follow_append, Option.elim_some, follow_text]
    rfl

/-- The rooted spelling of a relative path. -/
theorem ofString?_directoryText (p : LogicalPath) (s : String) :
    ofString? ("/" ++ p.directoryText ++ "/" ++ s) = p.resolve? s := by
  refine from?_congr ?_
  have hroot : "/" ++ p.directoryText = "" ++ "/" ++ p.directoryText := rfl
  rw [pathPieces_append_slash, hroot, pathPieces_append_slash, List.append_assoc]
  exact p.follow_directoryText _

/-- A single piece leads nowhere only if it is `..` and there is nothing above. -/
theorem follow_singleton_eq_none {dir : List String} {piece : String} (h : follow dir [piece] = none) :
    piece = ".." ∧ dir = [] := by
  simp only [follow] at h
  split at h
  · cases h
  · split at h
    · rename_i hup
      split at h
      · rename_i hdir
        exact ⟨hup, hdir⟩
      · cases h
    · cases h

theorem eq_empty_or_dot_of_append {s ext : String} (h : s ++ ("." ++ ext) = "..") : s = "" ∨ s = "." := by
  have hlist : s.toList ++ '.' :: ext.toList = ['.', '.'] := by
    simpa using congrArg String.toList h
  rcases hs : s.toList with _ | ⟨c, _ | ⟨c', cs⟩⟩
  · exact .inl (String.toList_inj.1 hs)
  · rw [hs, List.singleton_append, List.cons.injEq] at hlist
    rw [hlist.1] at hs
    exact .inr (String.toList_inj.1 hs)
  · rw [hs] at hlist
    have hlen := congrArg List.length hlist
    simp at hlen

/-- A path that climbs out of a directory leads nowhere without its extension either. -/
theorem from?_of_climbs {dir : List String} {hdir : ∀ s ∈ dir, IsSegment s} {stem ext : String}
    (hext : '/' ∉ ext.toList) (h : Climbs dir.length (pathPieces (stem ++ "." ++ ext))) :
    from? dir hdir stem = none := by
  rw [← follow_eq_none_iff, String.append_assoc,
    pathPieces_append_of_not_mem (slash_not_mem_dot_append hext), follow_append] at h
  rw [from?_eq_none_iff]
  have hpieces := List.dropLast_concat_getLast (pathPieces_ne_nil stem)
  generalize (pathPieces stem).getLast _ = last at h hpieces
  rw [← hpieces, follow_append]
  cases hinit : follow dir (pathPieces stem).dropLast with
  | none => exact .inl rfl
  | some next =>
    -- only the last piece goes up; without its extension it stays at the root
    rw [hinit, Option.bind_some] at h
    obtain ⟨hup, rfl⟩ := follow_singleton_eq_none h
    right
    rw [Option.bind_some, follow, if_pos (eq_empty_or_dot_of_append hup), follow]

end LogicalPath

namespace Project

variable {project : Project} {source : LogicalPath} {target : String}

/-- A relative target refers to what the rooted target refers to that spells out the directory. -/
theorem resolveAlias?_directoryText (source : LogicalPath) (hmeta : '/' ∉ project.layout.extensions.metadata.toList)
    (hmarkup : '/' ∉ project.layout.extensions.markup.toList)
    (h : addressing (project.stem target) = .relative) :
    project.resolveAlias? source ("/" ++ source.directoryText ++ "/" ++ target) =
      project.resolveAlias? source target := by
  have hstem := stem_append_slash hmeta hmarkup ("/" ++ source.directoryText) target
  have hrooted : addressing (project.stem ("/" ++ source.directoryText ++ "/" ++ target)) = .rooted := by
    rw [hstem, String.append_assoc, String.append_assoc]
    exact addressing_root _
  rw [resolveAlias?_of_ne_package (by rw [hrooted]; decide), resolveAlias?_of_ne_package (by rw [h]; decide)]
  unfold candidate?
  rw [hrooted, h, hstem]
  exact congrArg (Option.bind · _) (source.ofString?_directoryText (project.stem target))

/-- A relative target that climbs above the root refers to nothing. -/
theorem resolveAlias?_of_climbs (hmeta : '/' ∉ project.layout.extensions.metadata.toList)
    (hmarkup : '/' ∉ project.layout.extensions.markup.toList)
    (h : addressing (project.stem target) = .relative)
    (hclimbs : Climbs source.directory.length (pathPieces target)) :
    project.resolveAlias? source target = none := by
  have hnone : source.resolve? (project.stem target) = none := by
    rcases project.stem_cases target with hstem | ⟨-, hstem | ⟨-, hstem⟩⟩
    · exact LogicalPath.from?_of_climbs hmeta (hstem ▸ hclimbs)
    · exact LogicalPath.from?_of_climbs hmarkup (hstem ▸ hclimbs)
    · rw [hstem]
      exact LogicalPath.from?_eq_none_iff.2 (.inl (follow_eq_none_iff.2 hclimbs))
  rw [resolveAlias?_of_ne_package (by rw [h]; decide)]
  unfold candidate?
  rw [h, hnone]
  rfl

/-- What a target refers to depends only on its stem. -/
theorem resolveAlias?_congr {target' : String} (h : project.stem target = project.stem target') :
    project.resolveAlias? source target = project.resolveAlias? source target' := by
  unfold resolveAlias?
  rw [h]

end Project

/-- The ways to write a target agree. A relative target refers to what the rooted target refers to that
spells out the directory of the source, and to nothing where it climbs above the root. The extensions of
metadata and of markup may be written or left out where neither is at the end of the other. -/
theorem addressing_modes_agree (project : Project) (source : LogicalPath) (target : String) :
    let metadata := project.layout.extensions.metadata
    let markup := project.layout.extensions.markup
    ('/' ∉ metadata.toList → '/' ∉ markup.toList →
      (∃ rest, target = "./" ++ rest ∨ target = "../" ++ rest) →
        let rooted := "/" ++ source.directoryText ++ "/" ++ target
        project.resolveAlias? source target = project.resolveAlias? source rooted ∧
        (Climbs source.directory.length (pathPieces target) →
          project.resolveAlias? source target = none ∧ project.resolveAlias? source rooted = none)) ∧
    (¬ HasExtension metadata target → ¬ HasExtension markup target →
      ¬ HasExtension metadata markup → ¬ HasExtension markup metadata →
        project.resolveAlias? source (target ++ "." ++ metadata) = project.resolveAlias? source target ∧
        project.resolveAlias? source (target ++ "." ++ markup) = project.resolveAlias? source target) := by
  intro metadata markup
  constructor
  · intro hmeta hmarkup hrelative rooted
    have haddr := Project.addressing_stem hmeta hmarkup hrelative
    have hrooted := Project.resolveAlias?_directoryText source hmeta hmarkup haddr
    refine ⟨hrooted.symm, fun hclimbs => ?_⟩
    have hnone := Project.resolveAlias?_of_climbs hmeta hmarkup haddr hclimbs
    exact ⟨hnone, hrooted.trans hnone⟩
  · intro hmeta hmarkup hends hends'
    have hplain := Project.stem_of_plain hmeta hmarkup
    constructor
    · exact Project.resolveAlias?_congr ((project.stem_metadata target).trans hplain.symm)
    · exact Project.resolveAlias?_congr ((Project.stem_markup hends hends' target).trans hplain.symm)

/-- The same component by a relative target, by a rooted one and with an extension, and a target that
climbs above the root although it would come back into it. -/
theorem addressing_modes_agree_pages :
    let project : Project := ⟨.ofFiles [(⟨["p", "lib", "x.json"]⟩, "")] [], ⟨["p"]⟩, {}, ⟨[]⟩⟩
    let source : LogicalPath := ⟨["pages", "a"], by decide, by decide⟩
    let x : LogicalPath := ⟨["lib", "x"], by decide, by decide⟩
    project.resolveAlias? source "../lib/x" = some x ∧
      project.resolveAlias? source "/pages/../lib/x" = some x ∧
      project.resolveAlias? source "../lib/x.json" = some x ∧
      project.resolveAlias? source "../lib/x.axml" = some x ∧
      project.resolveAlias? source "./../../p/lib/x.json" = none := by
  intro project source x
  have hx : project.resolveAlias? source "../lib/x" = some x := by decide +kernel
  obtain ⟨hmodes, hextensions⟩ := addressing_modes_agree project source "../lib/x"
  obtain ⟨hrooted, -⟩ := hmodes (by decide) (by decide) ⟨"lib/x", .inr rfl⟩
  obtain ⟨hmetadata, hmarkup⟩ := hextensions (by decide +kernel) (by decide +kernel) (by decide +kernel)
    (by decide +kernel)
  have hclimbs : Climbs source.directory.length (pathPieces "./../../p/lib/x.json") :=
    follow_eq_none_iff.1 (by decide +kernel)
  obtain ⟨hnone, -⟩ := ((addressing_modes_agree project source "./../../p/lib/x.json").1 (by decide)
    (by decide) ⟨"../../p/lib/x.json", .inl rfl⟩).2 hclimbs
  exact ⟨hx, hrooted.symm.trans hx, hmetadata.trans hx, hmarkup.trans hx, hnone⟩

end MiniProgram
