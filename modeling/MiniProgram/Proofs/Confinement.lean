/-
What a check may depend on. A check looks at the project manifest, asks which files are there under
the root, lists the tree, and reads the metadata and the markup of the complete components that it
reaches; two file systems that agree on these give the same report (`check_confined`). Every path it
asks about leads from the root down through plain names (`LogicalPath.exists_names_file`), whatever
page names, aliases and package names say.

Two searches are kept in step by what they share: as long as the inspections of all that the first
one reaches come out alike, the second one does the same (`Project.resolve_congr`).
-/
import MiniProgram.FileSystem.Disk
import MiniProgram.Proofs.Entries
import MiniProgram.Proofs.Paths

namespace MiniProgram

/-! ## Where the files of a component lie -/

/-- With an extension that has no slash, the name of a file of a component is made of plain names. -/
theorem LogicalPath.isSegment_of_mem_withExtension (p : LogicalPath) {ext : String} (h : '/' ∉ ext.toList) :
    ∀ s ∈ pathPieces (p.withExtension ext), IsSegment s := by
  have hne : "." ++ ext ≠ "" := fun he => by simp at he
  have hfile : IsSegment (p.fileName ++ ("." ++ ext)) := by
    obtain ⟨h1, h2, h3⟩ := Disk.isName_fileName_append (p := p) hne
    refine ⟨h1, h2, h3, ?_⟩
    rw [String.toList_append, List.mem_append, not_or]
    exact ⟨p.slash_not_mem_fileName, slash_not_mem_dot_append h⟩
  rw [p.pathPieces_withExtension_of_not_mem h, List.forall_mem_append]
  exact ⟨p.isSegment_directory, List.forall_mem_singleton.2 hfile⟩

/-- With an extension that has no slash, a file of a component lies below the root by plain names. -/
theorem LogicalPath.exists_names_file (p : LogicalPath) (root : FilePath) {ext : String}
    (h : '/' ∉ ext.toList) : ∃ names, names ≠ [] ∧ (∀ s ∈ names, IsSegment s) ∧
      p.file root ext = root.extend names :=
  ⟨pathPieces (p.withExtension ext), pathPieces_ne_nil _, p.isSegment_of_mem_withExtension h, rfl⟩

/-! ## The same inspections -/

namespace Project

variable {project : Project} {fs' : FileSystem} {p : LogicalPath}

/-- The same project in another file system. -/
def within (project : Project) (fs' : FileSystem) : Project := { project with fs := fs' }

/-- The files that components are made of are there in both file systems or in neither. -/
def SameFiles (project : Project) (fs' : FileSystem) : Prop :=
  ∀ p, ∀ ext ∈ project.layout.extensions.all, (project.within fs').isFile p ext = project.isFile p ext

namespace SameFiles

variable (h : project.SameFiles fs')
include h

theorem missing? (p : LogicalPath) : (project.within fs').missing? p = project.missing? p := by
  unfold Project.missing?
  rw [← List.head?_filter, ← List.head?_filter]
  refine congrArg _ (List.filter_congr fun ext hext => ?_)
  rw [h p ext hext]

theorem resolveAlias? (p : LogicalPath) (target : String) :
    (project.within fs').resolveAlias? p target = project.resolveAlias? p target := by
  have hmetadata : (project.within fs').hasMetadata = project.hasMetadata :=
    funext fun q => h q _ (List.mem_cons_self ..)
  have hexisting : (project.within fs').existing? = project.existing? := by
    funext q
    unfold existing?
    rw [hmetadata]
  unfold Project.resolveAlias?
  rw [hexisting]
  rfl

theorem examine (p : LogicalPath) (metadata markup : SourceFile) (aliases : Manifest.Aliases) :
    (project.within fs').examine p metadata markup aliases = project.examine p metadata markup aliases := by
  have hdefinitions : (project.within fs').definitions p aliases = project.definitions p aliases := by
    unfold definitions
    simp only [h.resolveAlias?]
  have hunresolved : (project.within fs').unresolved p metadata aliases =
      project.unresolved p metadata aliases := by
    unfold unresolved
    simp only [h.resolveAlias?]
    rfl
  unfold Project.examine
  rw [hdefinitions, hunresolved]
  rfl

/-- An inspection comes out the same where the two files that it reads are the same. -/
theorem inspect (hread : project.Complete p →
      fs'.read (project.file p project.layout.extensions.metadata) =
        project.fs.read (project.file p project.layout.extensions.metadata) ∧
      fs'.read (project.file p project.layout.extensions.markup) =
        project.fs.read (project.file p project.layout.extensions.markup)) :
    (project.within fs').inspect p = project.inspect p := by
  unfold Project.inspect
  rw [h.missing?]
  cases hm : project.missing? p with
  | some ext => rfl
  | none =>
    obtain ⟨hmeta, hmarkup⟩ := hread (missing?_eq_none_iff.1 hm)
    have hreadMeta : (project.within fs').readFile p project.layout.extensions.metadata =
        project.readFile p project.layout.extensions.metadata := congrArg (Except.map _) hmeta
    have hreadMarkup : (project.within fs').readFile p project.layout.extensions.markup =
        project.readFile p project.layout.extensions.markup := congrArg (Except.map _) hmarkup
    simp only [h.examine]
    show ((project.within fs').readFile p project.layout.extensions.metadata >>= fun metadata =>
      Manifest.aliases (project.file p project.layout.extensions.metadata) metadata.text >>= fun aliases =>
        (project.within fs').readFile p project.layout.extensions.markup >>= fun markup =>
          pure (project.examine p metadata markup aliases)) = _
    rw [hreadMeta, hreadMarkup]

end SameFiles

/-! ## The same searches -/

variable {project' : Project} {entries : List LogicalPath}

theorem resolveFrom_congr {queue seen : List LogicalPath} {done : Resolution} {trail : Trail}
    (h : Searched project entries queue seen done trail)
    (heq : ∀ p, project.Reaches entries p → project'.inspect p = project.inspect p) :
    project'.resolveFrom queue seen done = project.resolveFrom queue seen done := by
  fun_induction project.resolveFrom queue seen done generalizing trail with
  | case1 seen done => rw [resolveFrom]
  | case2 seen done p queue hc ih =>
    rw [h.contains_head] at hc; cases hc
  | case3 seen done p queue hc e hi =>
    have hp : project.Reaches entries p := h.reaches p (by simp)
    exact resolveFrom_of_error hc ((heq p hp).trans hi)
  | case4 seen done p queue hc found hi new =>
    rename_i ih
    have hp : project.Reaches entries p := h.reaches p (by simp)
    rw [resolveFrom_of_ok hc ((heq p hp).trans hi)]
    exact ih (h.step hi)

/-- Two projects whose inspections agree on all that one of them reaches are searched alike. -/
theorem resolve_congr (heq : ∀ p, project.Reaches entries p → project'.inspect p = project.inspect p) :
    project'.resolve entries = project.resolve entries :=
  resolveFrom_congr (.start project entries) heq

/-- What a search reaches is the path of a component that it has found. -/
theorem exists_mem_values_of_reaches {result : Resolution} (h : project.resolve entries = .ok result)
    (hp : project.Reaches entries p) : ∃ c ∈ result.components.values, c.path = p := by
  obtain ⟨found, hi⟩ := resolve_ok_iff.1 ⟨result, h⟩ p hp
  have hfind := (find?_resolve h).2 ⟨hp, found, hi, rfl⟩
  exact ⟨found.component, List.mem_map.2 ⟨_, OrderedMap.mem_entries_of_find? hfind, rfl⟩, path_of_inspect hi⟩

end Project

/-! ## The same reports -/

/-- All that a check with this report may depend on is the same in `fs'` as in `fs`: the project
manifest, which files there are below the root, how the root is listed, and the metadata and markup
of the components in the report that have all their files. -/
structure SameView (config : Config) (root : FilePath) (report : Report) (fs fs' : FileSystem) : Prop where
  isFile_manifest : fs'.isFile (root.join (.ofString config.layout.manifest)) =
    fs.isFile (root.join (.ofString config.layout.manifest))
  read_manifest : fs'.read (root.join (.ofString config.layout.manifest)) =
    fs.read (root.join (.ofString config.layout.manifest))
  isFile : ∀ names, names ≠ [] → (∀ s ∈ names, IsSegment s) →
    fs'.isFile (root.extend names) = fs.isFile (root.extend names)
  list : ∀ excluded, fs'.list root excluded = fs.list root excluded
  read : ∀ c ∈ report.components.values, (config.project fs root).Complete c.path →
    fs'.read (c.path.file root config.layout.extensions.metadata) =
      fs.read (c.path.file root config.layout.extensions.metadata) ∧
    fs'.read (c.path.file root config.layout.extensions.markup) =
      fs.read (c.path.file root config.layout.extensions.markup)

/-- A check depends on nothing else than the manifest, the files that are there below the root, the
listing of the root, and the metadata and markup of the complete components that it reports. -/
theorem check_confined {config : Config} {fs fs' : FileSystem} {root : FilePath} {reader : Color.Reader}
    {report : Report} (hext : ∀ ext ∈ config.layout.extensions.all, '/' ∉ ext.toList)
    (h : check config fs root reader = .ok report) (hv : SameView config root report fs fs') :
    check config fs' root reader = .ok report := by
  obtain ⟨palette, text, pages, entries, found, orphans, hpalette, htext, hpages, hentries, hfound, horphans,
    rfl⟩ := check_eq_ok_iff.1 h
  have hfiles : (config.project fs root).SameFiles fs' := by
    intro p ext hmem
    obtain ⟨names, hne, hnames, hfile⟩ := p.exists_names_file root (hext ext hmem)
    show fs'.isFile (p.file root ext) = fs.isFile (p.file root ext)
    rw [hfile]
    exact hv.isFile names hne hnames
  have hinspect : ∀ p, (config.project fs root).Reaches entries p →
      (config.project fs' root).inspect p = (config.project fs root).inspect p := by
    intro p hp
    obtain ⟨c, hc, rfl⟩ := Project.exists_mem_values_of_reaches hfound hp
    exact hfiles.inspect (hv.read c hc)
  refine check_eq_ok_iff.2 ⟨palette, text, pages, entries, found, orphans, hpalette, ?_, hpages, hentries,
    ?_, ?_, rfl⟩
  · rw [← htext, readManifest, readManifest, hv.isFile_manifest, hv.read_manifest]
  · rw [← hfound]
    exact Project.resolve_congr hinspect
  · rw [← horphans]
    exact congrArg (Except.map _) (hv.list _)

/-- A page with all its files, the metadata and the markup of a component that no page reaches, and
files beside the root. What a check must not look into holds the text `hidden`. -/
def guardedFiles (hidden : String) (outside : List String) : FileSystem := .ofFiles
  ([(⟨["p", "app.json"]⟩, "\x7b\"pages\":[\"a\"]\x7d"), (⟨["p", "a.json"]⟩, ""),
    (⟨["p", "a.axml"]⟩, "<view/>"), (⟨["p", "a.js"]⟩, hidden), (⟨["p", "a.acss"]⟩, hidden),
    (⟨["p", "b.json"]⟩, hidden), (⟨["p", "b.axml"]⟩, hidden)] ++
    outside.map fun name => (⟨["q", name]⟩, hidden))
  ["a.axml", "b.axml"]

theorem isFile_guardedFiles (hidden : String) (outside : List String) {names : List String}
    (hne : names ≠ []) (hnames : ∀ s ∈ names, IsSegment s) :
    (guardedFiles hidden outside).isFile ((⟨["p"]⟩ : FilePath).extend names) =
      (guardedFiles "" []).isFile ((⟨["p"]⟩ : FilePath).extend names) := by
  have hpieces := Disk.pieces_extend_names (p := ⟨["p"]⟩) hne fun s hs => (hnames s hs).ne_empty
  have hout : ∀ name, (⟨["q", name]⟩ : FilePath) ≠ (⟨["p"]⟩ : FilePath).extend names := by
    intro name h
    rw [← h] at hpieces
    exact absurd (List.cons.inj hpieces).1 (by decide)
  simp [guardedFiles, FileSystem.ofFiles, hout]

theorem read_guardedFiles (hidden : String) (outside : List String) {path : FilePath}
    (h : path ∈ [⟨["p", "app.json"]⟩, ⟨["p", "a.json"]⟩, (⟨["p", "a.axml"]⟩ : FilePath)]) :
    (guardedFiles hidden outside).read path = (guardedFiles "" []).read path := by
  simp only [List.mem_cons, List.not_mem_nil, or_false] at h
  rcases h with rfl | rfl | rfl
  · rfl
  · rfl
  · rfl

/-- The report of the page is one and the same, whatever the hidden text is and whatever lies outside. -/
theorem check_confined_guarded :
    let a := topLevel "a" ⟨by decide, by decide, by decide, by decide⟩
    ∃ report, report.components.keys = [a] ∧ ∀ hidden outside,
      check {} (guardedFiles hidden outside) ⟨["p"]⟩ = .ok report := by
  intro a
  let b := topLevel "b" ⟨by decide, by decide, by decide, by decide⟩
  let project : Project := Config.project {} (guardedFiles "" []) ⟨["p"]⟩
  obtain ⟨palette, hpalette⟩ := exists_readPalette_default
  obtain ⟨found, hfound, hresult⟩ : ∃ found, project.resolve [a] = .ok found ∧
      (found.components.keys, found.components.values.map Component.path,
        (project.orphans found.components).toOption) = ([a], [a], some [b]) :=
    Project.exists_resolve_of_within (n := 1) (by decide +kernel)
  simp only [Prod.mk.injEq] at hresult
  obtain ⟨hkeys, hpaths, horphans⟩ := hresult
  have h := check_eq_ok_iff.2 ⟨palette, "\x7b\"pages\":[\"a\"]\x7d", ["a"], [a], found, [b],
    hpalette, eq_ok_of_toOption (by decide +kernel), eq_ok_of_toOption (by decide +kernel),
    eq_ok_of_toOption (by decide +kernel), hfound, eq_ok_of_toOption horphans, rfl⟩
  have hpath : ∀ c ∈ found.components.values, c.path = a := by
    rw [← List.forall_mem_map (P := (· = a)), hpaths]
    exact List.forall_mem_singleton.2 rfl
  refine ⟨_, hkeys, fun hidden outside => check_confined (by decide) h ?_⟩
  refine ⟨rfl, read_guardedFiles hidden outside (by decide +kernel), fun names hne hnames =>
    isFile_guardedFiles hidden outside hne hnames, fun _ => rfl, fun c hc _ => ?_⟩
  rw [hpath c hc]
  exact ⟨read_guardedFiles hidden outside (by decide +kernel),
    read_guardedFiles hidden outside (by decide +kernel)⟩

end MiniProgram
