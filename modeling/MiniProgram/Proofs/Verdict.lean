/-
The verdict of a check. A run that comes to a report calls the project free of fatal defects exactly
when every component it found has its four files, aliases that resolve and elements that mean
something, and clean exactly when moreover the markup needs no repair and is balanced, every alias
is used, and no markup file is left unreached.

Each inspection is judged by itself (`inspect_no_fatal_iff`, `records_eq_nil_iff`); the ledger of a
run holds the records of its inspections and of its orphans and nothing else.
-/
import Mathlib.Tactic.ByContra
import MiniProgram.Report
import MiniProgram.Proofs.Inspection
import MiniProgram.Proofs.Severity

namespace MiniProgram

open Text Markup

/-! ## Components without defects -/

namespace Project

variable {project : Project} {p : LogicalPath}

/-- The metadata file of the component declares the aliases `table`. -/
def Declares (project : Project) (p : LogicalPath) (table : Manifest.Aliases) : Prop :=
  ∃ text, project.fs.read (project.file p project.layout.extensions.metadata) = .ok text ∧
    Manifest.aliases (project.file p project.layout.extensions.metadata) text = .ok table

/-- The markup file of the component holds the text `source`. -/
def Shows (project : Project) (p : LogicalPath) (source : String) : Prop :=
  project.fs.read (project.file p project.layout.extensions.markup) = .ok source

/-- A component that declares `table`, shows `source` and has no broken reference. -/
structure Sound (project : Project) (p : LogicalPath) (table : Manifest.Aliases) (source : String) :
    Prop where
  complete : project.Complete p
  declares : project.Declares p table
  shows : project.Shows p source
  resolves : ∀ e ∈ table.entries, (project.resolveAlias? p e.2).isSome = true
  known : ∀ name, (parse source).document.HasElement name →
    project.vocabulary.contains name = true ∨ name ∈ table.keys

/-- A sound component of which nothing at all is to be said. -/
structure Flawless (project : Project) (p : LogicalPath) (table : Manifest.Aliases)
    (source : String) : Prop extends Sound project p table source where
  parsed : (parse source).diagnostics = []
  balanced : (parse source).document.unbalanced = []
  used : ∀ name ∈ table.keys, (parse source).document.HasElement name ∧
    project.vocabulary.contains name = false

/-! ## The records of one component -/

theorem readFile_eq_ok_iff {ext : String} {f : SourceFile} : project.readFile p ext = .ok f ↔
    project.fs.read (project.file p ext) = .ok f.text ∧ f.name = p.withExtension ext := by
  obtain ⟨name, text⟩ := f
  unfold readFile
  cases project.fs.read (project.file p ext) with
  | error e => simp [Except.map]
  | ok text' => simp [Except.map, and_comm, eq_comm]

@[simp] theorem severity_missingRecord (ext : String) : (project.missingRecord p ext).severity = .fatal := rfl

theorem severity_of_mem_unresolved {metadata : SourceFile} {aliases : Manifest.Aliases} {r : Record}
    (h : r ∈ project.unresolved p metadata aliases) : r.severity = .fatal := by
  obtain ⟨⟨name, target⟩, -, h⟩ := List.mem_filterMap.1 h
  simp only at h
  split at h
  · cases h
  · cases h
    simp only [unresolvedRecord, Record.severity_atAlias, Record.severity_withHelp, Record.severity_new]
    rfl

end Project

@[simp] theorem severity_undefinedRecord (metadata markup : SourceFile) (tag : Tag) :
    (undefinedRecord metadata markup tag).severity = .fatal := rfl

@[simp] theorem severity_unusedRecord (metadata : SourceFile) (name : String) :
    (unusedRecord metadata name).severity = .warning := by
  simp only [unusedRecord, Record.severity_atAlias, Record.severity_withHelp, Record.severity_new]
  rfl

theorem severity_of_mem_markupRecords {markup : SourceFile} {source : String} {r : Record}
    (h : r ∈ markupRecords markup (parse source)) : r.severity = .warning := by
  obtain ⟨d, hd, rfl⟩ := List.mem_map.1 h
  rw [Record.severity_ofDiagnostic]
  rcases List.mem_append.1 hd with hd | hd
  · exact allWarnings_parse source d hd
  · exact allWarnings_unbalanced _ d hd

/-- Records of one severity are free of it only if there are none. -/
theorem forall_severity_ne_iff {rs : List Record} {s : Severity} (h : ∀ r ∈ rs, r.severity = s) :
    (∀ r ∈ rs, r.severity ≠ s) ↔ rs = [] := by
  rw [List.eq_nil_iff_forall_not_mem]
  exact forall_congr' fun r => ⟨fun hr hm => hr hm (h r hm), fun hr hm => absurd hm hr⟩

namespace Project

variable {project : Project} {p : LogicalPath} {metadata markup : SourceFile}
  {aliases : Manifest.Aliases} {found : Inspection}

/-- The fatal records of an examined component are those of its aliases and of its elements. -/
theorem examine_no_fatal_iff :
    (∀ r ∈ (project.examine p metadata markup aliases).records, r.severity ≠ .fatal) ↔
      (∀ e ∈ aliases.entries, (project.resolveAlias? p e.2).isSome = true) ∧
      ∀ name, (parse markup.text).document.HasElement name →
        project.vocabulary.contains name = true ∨ name ∈ aliases.keys := by
  have hmarkup : ∀ r ∈ markupRecords markup (parse markup.text), r.severity ≠ .fatal := by
    intro r hr
    rw [severity_of_mem_markupRecords hr]; simp
  have hunused : ∀ names : List String, ∀ r ∈ names.map (unusedRecord metadata), r.severity ≠ .fatal := by
    intro names r hr
    obtain ⟨name, -, rfl⟩ := List.mem_map.1 hr
    simp
  have hundefined : ∀ tags : List Tag, ∀ r ∈ tags.map (undefinedRecord metadata markup),
      r.severity = .fatal := by
    intro tags r hr
    obtain ⟨t, -, rfl⟩ := List.mem_map.1 hr
    simp
  simp only [examine, List.forall_mem_append]
  rw [and_iff_left (hunused _), forall_severity_ne_iff (hundefined _), and_iff_left hmarkup,
    forall_severity_ne_iff fun r hr => severity_of_mem_unresolved hr, unresolved_eq_nil_iff,
    List.map_eq_nil_iff, filter_undefined_eq_nil_iff]
  refine and_congr_right fun h => ?_
  simp only [mem_keys_definitions_of_resolved h]

/-- An examined component has no record when moreover its markup and all its aliases are in order. -/
theorem examine_records_eq_nil_iff : (project.examine p metadata markup aliases).records = [] ↔
    ((∀ e ∈ aliases.entries, (project.resolveAlias? p e.2).isSome = true) ∧
      ∀ name, (parse markup.text).document.HasElement name →
        project.vocabulary.contains name = true ∨ name ∈ aliases.keys) ∧
    (parse markup.text).diagnostics = [] ∧ (parse markup.text).document.unbalanced = [] ∧
    ∀ name ∈ aliases.keys, (parse markup.text).document.HasElement name ∧
      project.vocabulary.contains name = false := by
  simp only [examine, List.append_eq_nil_iff, List.map_eq_nil_iff, markupRecords, unresolved_eq_nil_iff,
    filter_undefined_eq_nil_iff]
  constructor
  · rintro ⟨⟨⟨hr, hd, hb⟩, hk⟩, hu⟩
    simp only [mem_keys_definitions_of_resolved hr] at hk
    refine ⟨⟨hr, hk⟩, hd, hb, fun name hn => ?_⟩
    by_contra hne
    refine List.eq_nil_iff_forall_not_mem.1 hu name (mem_unusedAliases.2 ⟨?_, hne⟩)
    exact (mem_keys_definitions_of_resolved hr).2 hn
  · rintro ⟨⟨hr, hk⟩, hd, hb, hu⟩
    simp only [mem_keys_definitions_of_resolved hr]
    refine ⟨⟨⟨hr, hd, hb⟩, hk⟩, List.eq_nil_iff_forall_not_mem.2 fun name hn => ?_⟩
    obtain ⟨hkey, hne⟩ := mem_unusedAliases.1 hn
    exact hne (hu name ((mem_keys_definitions_of_resolved hr).1 hkey))

/-- Where all files are there, an inspection that succeeds has read what the component declares and
shows, and has examined it. -/
theorem inspect_of_complete (h : project.inspect p = .ok found) (hc : project.Complete p) :
    ∃ metadata aliases markup, project.Declares p aliases ∧ project.Shows p markup.text ∧
      found = project.examine p metadata markup aliases := by
  rcases inspect_cases h with ⟨ext, hm, -⟩ | ⟨metadata, aliases, markup, -, hmeta, haliases, hmarkup, hf⟩
  · rw [missing?_eq_none_iff.2 hc] at hm; cases hm
  · exact ⟨metadata, aliases, markup, ⟨metadata.text, (readFile_eq_ok_iff.1 hmeta).1, haliases⟩,
      (readFile_eq_ok_iff.1 hmarkup).1, hf⟩

/-- Where a file is missing, an inspection files one fatal record. -/
theorem inspect_of_not_complete (h : project.inspect p = .ok found) (hc : ¬ project.Complete p) :
    ∃ ext, found.records = [project.missingRecord p ext] := by
  rcases inspect_cases h with ⟨ext, -, rfl⟩ | ⟨_, _, _, hm, -⟩
  · exact ⟨ext, rfl⟩
  · exact absurd (missing?_eq_none_iff.1 hm) hc

theorem Declares.unique {table table' : Manifest.Aliases} (h : project.Declares p table)
    (h' : project.Declares p table') : table = table' := by
  obtain ⟨text, hr, ha⟩ := h
  obtain ⟨text', hr', ha'⟩ := h'
  rw [hr] at hr'
  cases hr'
  rw [ha] at ha'
  cases ha'
  rfl

theorem Shows.unique {source source' : String} (h : project.Shows p source)
    (h' : project.Shows p source') : source = source' := by
  unfold Shows at h h'
  rw [h] at h'
  cases h'
  rfl

/-- An inspection finds nothing fatal exactly of a sound component. -/
theorem inspect_no_fatal_iff (h : project.inspect p = .ok found) :
    (∀ r ∈ found.records, r.severity ≠ .fatal) ↔ ∃ table source, project.Sound p table source := by
  by_cases hc : project.Complete p
  · obtain ⟨metadata, aliases, markup, hd, hs, rfl⟩ := inspect_of_complete h hc
    rw [examine_no_fatal_iff]
    constructor
    · rintro ⟨hr, hk⟩
      exact ⟨aliases, markup.text, hc, hd, hs, hr, hk⟩
    · rintro ⟨table, source, hsound⟩
      cases hsound.declares.unique hd
      cases hsound.shows.unique hs
      exact ⟨hsound.resolves, hsound.known⟩
  · obtain ⟨ext, hr⟩ := inspect_of_not_complete h hc
    rw [hr]
    constructor
    · intro hf
      exact absurd (severity_missingRecord ext) (hf _ (List.mem_singleton_self _))
    · rintro ⟨table, source, hsound⟩
      exact absurd hsound.complete hc

/-- An inspection finds nothing at all exactly of a flawless component. -/
theorem records_eq_nil_iff (h : project.inspect p = .ok found) :
    found.records = [] ↔ ∃ table source, project.Flawless p table source := by
  by_cases hc : project.Complete p
  · obtain ⟨metadata, aliases, markup, hd, hs, rfl⟩ := inspect_of_complete h hc
    rw [examine_records_eq_nil_iff]
    constructor
    · rintro ⟨⟨hr, hk⟩, hp, hb, hu⟩
      exact ⟨aliases, markup.text, ⟨hc, hd, hs, hr, hk⟩, hp, hb, hu⟩
    · rintro ⟨table, source, hf⟩
      cases hf.declares.unique hd
      cases hf.shows.unique hs
      exact ⟨⟨hf.resolves, hf.known⟩, hf.parsed, hf.balanced, hf.used⟩
  · obtain ⟨ext, hr⟩ := inspect_of_not_complete h hc
    rw [hr]
    constructor
    · intro hnil; cases hnil
    · rintro ⟨table, source, hf⟩
      exact absurd hf.complete hc

end Project

/-! ## Whole runs -/

/-- The project that a check looks at. -/
def Config.project (config : Config) (fs : FileSystem) (root : FilePath) : Project :=
  ⟨fs, root, config.layout, ⟨config.builtinElements⟩⟩

/-- A check comes to a report exactly when each of its stages comes to its result. -/
theorem check_eq_ok_iff {config : Config} {fs : FileSystem} {root : FilePath} {reader : Color.Reader}
    {report : Report} :
    check config fs root reader = .ok report ↔
      ∃ palette text pages entries found orphans,
        readPalette config.palette reader = .ok palette ∧
        readManifest fs (root.join (.ofString config.layout.manifest)) = .ok text ∧
        Manifest.pages (root.join (.ofString config.layout.manifest)) text = .ok pages ∧
        entryPaths pages = .ok entries ∧
        (config.project fs root).resolve entries = .ok found ∧
        (config.project fs root).orphans found.components = .ok orphans ∧
        report = { root, entries, palette, components := found.components
                   ledger := found.ledger.recordOrphans orphans config.layout.extensions.markup
                   layout := config.layout } := by
  unfold check
  cases hpalette : readPalette config.palette reader with
  | error fault =>
    constructor
    · intro h; cases h
    · rintro ⟨_, _, _, _, _, _, h, -⟩; cases h
  | ok colors =>
    simp only [bind_eq_ok_iff]
    constructor
    · rintro ⟨palette, hcolors, text, htext, pages, hpages, entries, hentries, found, hfound, orphans,
        horphans, h⟩
      cases hcolors
      cases h
      exact ⟨colors, text, pages, entries, found, orphans, rfl, htext, hpages, hentries, hfound, horphans,
        rfl⟩
    · rintro ⟨palette, text, pages, entries, found, orphans, hcolors, htext, hpages, hentries, hfound,
        horphans, rfl⟩
      cases hcolors
      exact ⟨colors, rfl, text, htext, pages, hpages, entries, hentries, found, hfound, orphans, horphans,
        rfl⟩

theorem isEmpty_bucket_recordOrphans (l : Ledger) (orphans : List LogicalPath) (ext : String)
    (s : Severity) : ((l.recordOrphans orphans ext).bucket s).isEmpty = true ↔
      (l.bucket s).isEmpty = true ∧ (s = .warning → orphans = []) := by
  have hsev : ∀ r ∈ orphans.map (orphanRecord ext), r.severity = .warning := by
    intro r hr
    obtain ⟨q, -, rfl⟩ := List.mem_map.1 hr
    rfl
  unfold Ledger.recordOrphans
  rw [Ledger.isEmpty_bucket_recordAll]
  refine and_congr_right fun _ => ?_
  cases s with
  | fatal =>
    refine iff_of_true (fun r hr => ?_) (fun h => by cases h)
    rw [hsev r hr]; simp
  | warning =>
    rw [forall_severity_ne_iff hsev, List.map_eq_nil_iff]
    exact ⟨fun h _ => h, fun h => h rfl⟩

theorem Trail.records_eq_nil_iff (t : Trail) :
    (∀ s : Severity, ∀ e ∈ t, ∀ r ∈ e.2.records, r.severity ≠ s) ↔ ∀ e ∈ t, e.2.records = [] := by
  constructor
  · intro h e he
    exact List.eq_nil_iff_forall_not_mem.2 fun r hr => h r.severity e he r hr rfl
  · intro h s e he r hr
    rw [h e he] at hr; cases hr

/-- The components of a search are those it has looked into. -/
theorem Searched.forall_values_iff {project : Project} {entries queue seen : List LogicalPath}
    {done : Resolution} {trail : Trail} (h : Searched project entries queue seen done trail)
    (P : LogicalPath → Prop) : (∀ c ∈ done.components.values, P c.path) ↔ ∀ e ∈ trail, P e.1 := by
  have hpath : ∀ e ∈ trail, e.2.component.path = e.1 := fun e he =>
    Project.path_of_inspect (h.inspected e he)
  unfold OrderedMap.values
  rw [h.components, List.map_map, List.forall_mem_map]
  exact forall₂_congr fun e he => by rw [← hpath e he]; rfl

/-- The verdict of a check that comes to a report, whatever it takes for colours. What the components with all their files declare
and show is known; no fatal defect is filed exactly when every component found is sound; and the
report is clean exactly when every component found is flawless and there are no orphans. -/
theorem check_verdict {config : Config} {fs : FileSystem} {root : FilePath} {reader : Color.Reader}
    {report : Report} (h : check config fs root reader = .ok report) :
    (∀ c ∈ report.components.values, (config.project fs root).Complete c.path →
      ∃ table source, (config.project fs root).Declares c.path table ∧
        (config.project fs root).Shows c.path source) ∧
    (report.ledger.fatal.isEmpty = true ↔ ∀ c ∈ report.components.values,
      ∃ table source, (config.project fs root).Sound c.path table source) ∧
    (report.isClean = true ↔
      (∀ c ∈ report.components.values, ∃ table source, (config.project fs root).Flawless c.path table source) ∧
      (config.project fs root).orphans report.components = .ok []) := by
  obtain ⟨palette, text, pages, entries, found, orphans, -, -, -, -, hfound, horphans, rfl⟩ :=
    check_eq_ok_iff.1 h
  obtain ⟨seen, trail, hs⟩ := Project.resolve_searched hfound
  refine ⟨?_, ?_, ?_⟩
  · rw [hs.forall_values_iff fun p => (config.project fs root).Complete p →
      ∃ table source, (config.project fs root).Declares p table ∧ (config.project fs root).Shows p source]
    intro e he hc
    obtain ⟨_, table, markup, hd, hm, -⟩ := Project.inspect_of_complete (hs.inspected e he) hc
    exact ⟨table, markup.text, hd, hm⟩
  · rw [hs.forall_values_iff fun p => ∃ table source, (config.project fs root).Sound p table source]
    have hb := isEmpty_bucket_recordOrphans found.ledger orphans config.layout.extensions.markup .fatal
    refine hb.trans ?_
    rw [and_iff_left (fun hne => by cases hne), hs.ledger, Trail.isEmpty_bucket_ledger]
    exact forall₂_congr fun e he => Project.inspect_no_fatal_iff (hs.inspected e he)
  · rw [hs.forall_values_iff fun p => ∃ table source, (config.project fs root).Flawless p table source]
    show (found.ledger.recordOrphans orphans config.layout.extensions.markup).isClean = true ↔ _
    rw [Ledger.isClean_iff]
    simp only [isEmpty_bucket_recordOrphans, hs.ledger, Trail.isEmpty_bucket_ledger, forall_and]
    rw [Trail.records_eq_nil_iff, horphans]
    refine and_congr (forall₂_congr fun e he => Project.records_eq_nil_iff (hs.inspected e he)) ?_
    constructor
    · intro ho; rw [ho .warning rfl]
    · intro ho s _; cases ho; rfl

theorem eq_ok_of_toOption {ε α : Type} {x : Except ε α} {a : α} (h : x.toOption = some a) : x = .ok a := by
  cases x with
  | error e => cases h
  | ok b => cases h; rfl

/-- Two components that use each other make a clean project. -/
theorem check_verdict_mutual :
    ∃ report, check {} mutualFiles ⟨["p"]⟩ = .ok report ∧ report.isClean = true ∧
      (∀ c ∈ report.components.values, ∃ table source,
        (Config.project {} mutualFiles ⟨["p"]⟩).Flawless c.path table source) := by
  let a := topLevel "a" ⟨by decide, by decide, by decide, by decide⟩
  let project : Project := Config.project {} mutualFiles ⟨["p"]⟩
  obtain ⟨palette, hpalette⟩ := exists_readPalette_default
  obtain ⟨found, hfound, hclean⟩ : ∃ found, project.resolve [a, a] = .ok found ∧
      (found.ledger.isClean, (project.orphans found.components).toOption) = (true, some []) :=
    Project.exists_resolve_of_within (n := 2) (by decide +kernel)
  rw [Prod.mk.injEq] at hclean
  have h := check_eq_ok_iff.2 ⟨palette, "\x7b\"pages\":[\"a\",\"a\"]\x7d", ["a", "a"], [a, a], found, [],
    hpalette, eq_ok_of_toOption (by decide +kernel), eq_ok_of_toOption (by decide +kernel),
    eq_ok_of_toOption (by decide +kernel), hfound, eq_ok_of_toOption hclean.2, rfl⟩
  exact ⟨_, h, hclean.1, ((check_verdict h).2.2.1 hclean.1).1⟩

end MiniProgram
