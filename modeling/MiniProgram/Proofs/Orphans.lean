/-
Orphans and the files they are reported for. A logical path is recovered from the name of its markup
file (`LogicalPath.ofFile?_withExtension`), but not every file with the extension is the file of a
logical path: where an empty piece, `.` or `..` stands before the extension, the name is read as the
way to another file, or to none (`Unnamed`).

The reports about orphans split the markup files of a project into the files of known components and
the files that are reported once, exactly when no listed file is unnamed and none of an unknown
component is listed twice (`orphans_partition_iff`).
-/
import Mathlib.Data.List.Nodup
import MiniProgram.FileSystem.Disk
import MiniProgram.Orphan
import MiniProgram.Proofs.Ledger
import MiniProgram.Proofs.Paths
import MiniProgram.Proofs.Verdict

namespace MiniProgram

open Text

/-! ## Files of no logical path -/

/-- A file with this extension that is the file of no logical path: of what stands before the extension
some piece is empty, `.` or `..`. -/
def Unnamed (ext file : String) : Prop :=
  ∃ stem, file = stem ++ "." ++ ext ∧ ∃ piece ∈ pathPieces stem, ¬ IsSegment piece

instance (ext file : String) : Decidable (Unnamed ext file) :=
  decidable_of_iff (∃ stem ∈ dropExtension? ext.toList file.toList,
      ∃ piece ∈ pathPieces (String.ofList stem), ¬ IsSegment piece) <| by
    constructor
    · rintro ⟨stem, hstem, h⟩
      exact ⟨String.ofList stem, dropExtension?_toList.1 hstem, h⟩
    · rintro ⟨stem, rfl, h⟩
      refine ⟨stem.toList, dropExtension?_toList.2 ?_, ?_⟩
      · rw [String.ofList_toList]
      · rwa [String.ofList_toList]

namespace LogicalPath

variable {p : LogicalPath} {file ext : String}

/-- The file of a component is not unnamed. -/
theorem not_unnamed_withExtension (p : LogicalPath) (ext : String) : ¬ Unnamed ext (p.withExtension ext) := by
  rintro ⟨stem, hstem, piece, hpiece, hnot⟩
  obtain rfl : p.text = stem := withExtension_eq_iff.1 hstem
  rw [p.pathPieces_text] at hpiece
  exact hnot (p.isSegment piece hpiece)

/-- A file with the extension that is not unnamed is the file of a component. -/
theorem exists_withExtension {stem : String} (h : ¬ Unnamed ext (stem ++ "." ++ ext)) :
    ∃ p : LogicalPath, p.withExtension ext = stem ++ "." ++ ext := by
  have hstem : ∀ piece ∈ pathPieces stem, IsSegment piece := by
    intro piece hpiece
    by_contra hnot
    exact h ⟨stem, rfl, piece, hpiece, hnot⟩
  obtain ⟨p, hp⟩ := exists_text_eq hstem
  exact ⟨p, withExtension_eq_iff.2 hp⟩

/-- A component is read off its own file, and off no other file that is not unnamed. -/
theorem ofFile?_eq_some_iff_of_not_unnamed (h : ¬ Unnamed ext file) :
    ofFile? file ext = some p ↔ file = p.withExtension ext := by
  constructor
  · intro hread
    obtain ⟨stem, rfl, -⟩ := ofFile?_eq_some_iff.1 hread
    obtain ⟨q, hq⟩ := exists_withExtension h
    rw [← hq, ofFile?_withExtension, Option.some.injEq] at hread
    rw [← hq, hread]
  · rintro rfl
    exact p.ofFile?_withExtension ext

end LogicalPath

/-! ## Records of a ledger -/

namespace Ledger

/-- All records of a ledger. -/
def records (l : Ledger) : List Record := l.fatal.values.flatten ++ l.warning.values.flatten

theorem records_record (l : Ledger) (key : String) (r : Record) :
    (l.record key r).records.Perm (r :: l.records) := by
  unfold record records
  split
  · exact (l.fatal.flatten_values_file key r).append_right _
  · exact ((l.warning.flatten_values_file key r).append_left _).trans List.perm_middle

/-- Filing loses no record and adds no other. -/
theorem records_recordAll (key : String) : ∀ (rs : List Record) (l : Ledger),
    (l.recordAll key rs).records.Perm (rs ++ l.records)
  | [], l => .refl _
  | r :: rs, l => by
    have ih := records_recordAll key rs (l.record key r)
    rw [recordAll, List.foldl_cons, ← recordAll]
    exact ih.trans (((l.records_record key r).append_left rs).trans List.perm_middle)

/-- The number of reports that a file is an orphan. -/
def orphanReports (l : Ledger) (file : String) : Nat :=
  l.records.countP fun r => r.kind = .e304 ∧ r.file = some file

/-- In a new ledger, the records of orphans are all there is. -/
theorem records_recordOrphans (orphans : List LogicalPath) (ext : String) :
    (empty.recordOrphans orphans ext).records.Perm (orphans.map (orphanRecord ext)) := by
  have h := records_recordAll (orphanKey orphans.length) (orphans.map (orphanRecord ext)) empty
  rwa [show empty.records = [] from rfl, List.append_nil] at h

theorem orphanReports_recordOrphans (orphans : List LogicalPath) (ext file : String) :
    (empty.recordOrphans orphans ext).orphanReports file =
      orphans.countP fun p => p.withExtension ext = file := by
  unfold orphanReports
  rw [(records_recordOrphans orphans ext).countP_eq, List.countP_map]
  refine List.countP_congr fun p _ => ?_
  simp [orphanRecord, Record.inFile, Record.new]

end Ledger

/-! ## The markup files of a project -/

/-- A component of the map has this file. -/
def ComponentMap.HasFile (components : ComponentMap) (ext file : String) : Prop :=
  ∃ p ∈ components.keys, file = p.withExtension ext

/-- The listed files with an extension are in two groups: a file belongs to a known component, or
it is reported as an orphan once. Nothing is reported for a file that is not listed. -/
structure Partitioned (ext : String) (files : List String) (components : ComponentMap) (l : Ledger) :
    Prop where
  known_or_reported : ∀ stem, stem ++ "." ++ ext ∈ files →
    Xor (components.HasFile ext (stem ++ "." ++ ext)) (l.orphanReports (stem ++ "." ++ ext) = 1)
  listed : ∀ r ∈ l.records, r.kind = .e304 → ∃ file ∈ files, r.file = some file

/-- The components that are read off the files of a listing and are not known. -/
def orphansIn (ext : String) (components : ComponentMap) (files : List String) : List LogicalPath :=
  (files.filterMap fun file => LogicalPath.ofFile? file ext).filter fun p => !components.contains p

section Listing

variable {ext : String} {components : ComponentMap} {files : List String}

theorem mem_orphansIn_iff {p : LogicalPath} : p ∈ orphansIn ext components files ↔
    (∃ file ∈ files, LogicalPath.ofFile? file ext = some p) ∧ p ∉ components.keys := by
  unfold orphansIn
  rw [List.mem_filter, List.mem_filterMap, Bool.not_eq_true', ← Bool.not_eq_true, OrderedMap.contains_iff]

/-- An unnamed file is neither the file of a known component nor reported. -/
theorem Partitioned.not_unnamed
    (h : Partitioned ext files components (Ledger.empty.recordOrphans (orphansIn ext components files) ext))
    {file : String} (hfile : file ∈ files) : ¬ Unnamed ext file := by
  intro hunnamed
  have hother : ∀ p : LogicalPath, p.withExtension ext ≠ file :=
    fun p hp => p.not_unnamed_withExtension ext (hp ▸ hunnamed)
  obtain ⟨stem, rfl, -⟩ := hunnamed
  rcases h.known_or_reported stem hfile with ⟨⟨p, -, hp⟩, -⟩ | ⟨hone, -⟩
  · exact hother p hp.symm
  · rw [Ledger.orphanReports_recordOrphans, List.countP_eq_zero.2] at hone
    · cases hone
    · intro p _
      simpa using hother p

variable (components) (hnamed : ∀ file ∈ files, ¬ Unnamed ext file)
include hnamed

/-- A file is reported as often as it is listed, unless its component is known. -/
theorem orphanReports_orphansIn (p : LogicalPath) :
    (Ledger.empty.recordOrphans (orphansIn ext components files) ext).orphanReports (p.withExtension ext) =
      if p ∈ components.keys then 0 else files.count (p.withExtension ext) := by
  have hcount : (Ledger.empty.recordOrphans (orphansIn ext components files) ext).orphanReports
      (p.withExtension ext) = (orphansIn ext components files).count p := by
    rw [Ledger.orphanReports_recordOrphans, List.count]
    refine List.countP_congr fun q _ => ?_
    simp only [decide_eq_true_eq, beq_iff_eq]
    exact ⟨LogicalPath.withExtension_inj, fun h => h ▸ rfl⟩
  rw [hcount]
  split
  · rename_i hknown
    exact List.count_eq_zero.2 fun hmem => (mem_orphansIn_iff.1 hmem).2 hknown
  · rename_i hknown
    have hkept : (!components.contains p) = true := by
      rwa [Bool.not_eq_true', ← Bool.not_eq_true, OrderedMap.contains_iff]
    have hkeep : (orphansIn ext components files).count p =
        (files.filterMap fun file => LogicalPath.ofFile? file ext).count p := by
      unfold orphansIn
      exact List.count_filter hkept
    rw [hkeep, List.count, List.countP_filterMap, List.count]
    refine List.countP_congr fun file hfile => ?_
    have hread := LogicalPath.ofFile?_eq_some_iff_of_not_unnamed (p := p) (hnamed file hfile)
    rw [beq_iff_eq, ← hread]
    cases LogicalPath.ofFile? file ext with
    | none => simp
    | some q => simp

/-- A file is in one of the two groups, unless its component is unknown and it is not listed once. -/
theorem known_or_reported_iff {stem : String} (hfile : stem ++ "." ++ ext ∈ files) :
    Xor (components.HasFile ext (stem ++ "." ++ ext))
        ((Ledger.empty.recordOrphans (orphansIn ext components files) ext).orphanReports (stem ++ "." ++ ext) = 1) ↔
      (¬ components.HasFile ext (stem ++ "." ++ ext) → files.count (stem ++ "." ++ ext) = 1) := by
  obtain ⟨p, hp⟩ := LogicalPath.exists_withExtension (hnamed _ hfile)
  have hknown : components.HasFile ext (p.withExtension ext) ↔ p ∈ components.keys := by
    constructor
    · rintro ⟨q, hq, heq⟩
      rwa [LogicalPath.withExtension_inj heq]
    · exact fun h => ⟨p, h, rfl⟩
  rw [← hp, orphanReports_orphansIn components hnamed p, hknown]
  unfold Xor
  by_cases h : p ∈ components.keys
  · simp [h]
  · simp [h]

/-- Without unnamed files nothing is reported for a file that is not listed. -/
theorem listed_of_mem_records {r : Record}
    (hr : r ∈ (Ledger.empty.recordOrphans (orphansIn ext components files) ext).records) :
    ∃ file ∈ files, r.file = some file := by
  rw [(Ledger.records_recordOrphans _ _).mem_iff, List.mem_map] at hr
  obtain ⟨p, hp, rfl⟩ := hr
  obtain ⟨⟨file, hfile, hread⟩, -⟩ := mem_orphansIn_iff.1 hp
  rw [LogicalPath.ofFile?_eq_some_iff_of_not_unnamed (hnamed file hfile)] at hread
  exact ⟨file, hfile, congrArg some hread.symm⟩

end Listing

/-- A project that can be listed has its orphans read off the listing. -/
theorem Project.orphans_eq_ok {project : Project} {files : List String} {components : ComponentMap}
    (h : project.fs.list project.root [project.layout.registryDir] = .ok files) :
    project.orphans components = .ok (orphansIn project.layout.extensions.markup components files) := by
  unfold orphans
  rw [h]
  rfl

/-- The reports about orphans split the listed markup files into those of known components and those
that are reported exactly once, unless a listed file is unnamed, or one of an unknown component is listed
more than once. -/
theorem orphans_partition_iff (project : Project) {files : List String} (components : ComponentMap)
    (hfiles : project.fs.list project.root [project.layout.registryDir] = .ok files) :
    let ext := project.layout.extensions.markup
    ∃ orphans, project.orphans components = .ok orphans ∧
      (Partitioned ext files components (Ledger.empty.recordOrphans orphans ext) ↔
        (∀ file ∈ files, ¬ Unnamed ext file) ∧
        ∀ stem, stem ++ "." ++ ext ∈ files → ¬ components.HasFile ext (stem ++ "." ++ ext) →
          files.count (stem ++ "." ++ ext) = 1) := by
  intro ext
  refine ⟨_, Project.orphans_eq_ok hfiles, ?_, ?_⟩
  · intro h
    have hnamed : ∀ file ∈ files, ¬ Unnamed ext file := fun file hfile => h.not_unnamed hfile
    exact ⟨hnamed, fun stem hfile =>
      (known_or_reported_iff components hnamed hfile).1 (h.known_or_reported stem hfile)⟩
  · rintro ⟨hnamed, honce⟩
    exact ⟨fun stem hfile => (known_or_reported_iff components hnamed hfile).2 (honce stem hfile),
      fun r hr _ => listed_of_mem_records components hnamed hr⟩

/-- The files below a location are listed in order. -/
theorem Disk.list_eq_ok {d : Disk} {root : FilePath} {location excluded files : List String}
    (hlocate : d.locate root = .ok location)
    (hbelow : (d.filesBelow location).filterMap (fun below =>
      if inExcluded excluded below then none else some ("/".intercalate below)) = files)
    (hsorted : files.Pairwise fun a b => (compare a b).isLE) :
    d.fileSystem.list root excluded = .ok files := by
  rw [show d.fileSystem.list = d.list from rfl, list, hlocate]
  simp only
  rw [hbelow, sortTexts, List.mergeSort_of_pairwise hsorted]

/-- A disk with empty files. -/
def Disk.ofNames (files : List (List String)) : Disk :=
  files.foldl (fun d names => d.place ⟨names⟩ (.file [])) .empty

/-- A known component and an orphan beside a script and a package. -/
theorem orphans_partition_iff_pages :
    let a := topLevel "a" ⟨by decide, by decide, by decide, by decide⟩
    let d := Disk.ofNames [["p", "a.axml"], ["p", "pages", "..b.axml"], ["p", "pages", "b.js"],
      ["p", "node_modules", "c.axml"]]
    let files := ["a.axml", "pages/..b.axml", "pages/b.js"]
    let components : ComponentMap := .ofList [(a, .empty a)]
    d.fileSystem.list ⟨["p"]⟩ ["node_modules"] = .ok files ∧
      ∃ orphans, (Config.project {} d.fileSystem ⟨["p"]⟩).orphans components = .ok orphans ∧
        Partitioned "axml" files components (Ledger.empty.recordOrphans orphans "axml") := by
  intro a d files components
  have hlocate : d.locate ⟨["p"]⟩ = .ok ["p"] := eq_ok_of_toOption (by decide +kernel)
  have hfiles : d.fileSystem.list ⟨["p"]⟩ ["node_modules"] = .ok files :=
    Disk.list_eq_ok hlocate (by decide +kernel) (by decide +kernel)
  obtain ⟨orphans, horphans, hiff⟩ :=
    orphans_partition_iff (Config.project {} d.fileSystem ⟨["p"]⟩) components hfiles
  have hnodup : files.Nodup := by decide +kernel
  refine ⟨hfiles, orphans, horphans, hiff.2 ⟨by decide +kernel, fun stem hfile _ => ?_⟩⟩
  exact List.count_eq_one_of_mem hnodup hfile

/-- A file that has only the extension for a name is reported under the name of its directory, so
the reports about orphans do not split the markup files. -/
theorem orphans_of_bare_extension :
    let d := Disk.ofNames [["p", "pages", ".axml"]]
    d.fileSystem.list ⟨["p"]⟩ ["node_modules"] = .ok ["pages/.axml"] ∧
      ∃ orphans, (Config.project {} d.fileSystem ⟨["p"]⟩).orphans .empty = .ok orphans ∧
        orphans.map (·.withExtension "axml") = ["pages.axml"] ∧
        ¬ Partitioned "axml" ["pages/.axml"] .empty (Ledger.empty.recordOrphans orphans "axml") := by
  intro d
  have hlocate : d.locate ⟨["p"]⟩ = .ok ["p"] := eq_ok_of_toOption (by decide +kernel)
  have hfiles : d.fileSystem.list ⟨["p"]⟩ ["node_modules"] = .ok ["pages/.axml"] :=
    Disk.list_eq_ok hlocate (by decide +kernel) (by decide +kernel)
  refine ⟨hfiles, _, Project.orphans_eq_ok hfiles, by decide +kernel, fun h => ?_⟩
  exact h.not_unnamed (List.mem_singleton_self _) (by decide +kernel)

end MiniProgram
