/-
The registry directory in the scan for orphans. A listing leaves out directories by their own name
(`FileSystem.SkipsExcluded`), while the registry directory is a path everywhere else: the targets of
packages are followed from it, and what lies under it is external. The two readings agree exactly when
the directory is written as one plain name (`registry_skipped_iff`): then no orphan lies inside it, and
with any other spelling of a directory some tree has an orphan there.
-/
import MiniProgram.Proofs.Orphans

namespace MiniProgram

open Text

/-! ## Listings -/

/-- No listed file lies in a directory with an excluded name. -/
def FileSystem.SkipsExcluded (fs : FileSystem) : Prop :=
  ∀ root excluded files, fs.list root excluded = .ok files →
    ∀ file ∈ files, inExcluded excluded (pathPieces file) = false

theorem mem_sortTexts {s : String} {ss : List String} : s ∈ sortTexts ss ↔ s ∈ ss :=
  (List.mergeSort_perm ss _).mem_iff

/-- Names without slashes are cut apart as they were joined. -/
theorem dropLast_pathPieces_intercalate {names : List String} (h : ∀ s ∈ names, '/' ∉ s.toList) :
    (pathPieces ("/".intercalate names)).dropLast = names.dropLast := by
  by_cases hne : names = []
  · subst hne; rfl
  · rw [LogicalPath.pathPieces_joined hne h]

/-- A disk whose names hold no slash leaves out excluded directories. -/
theorem Disk.skipsExcluded {d : Disk} (h : ∀ location ∈ d.entries.keys, ∀ s ∈ location, '/' ∉ s.toList) :
    d.fileSystem.SkipsExcluded := by
  intro root excluded files hlist file hfile
  rw [show d.fileSystem.list = d.list from rfl, list] at hlist
  split at hlist
  · cases hlist
  · cases hlist
    rw [mem_sortTexts, List.mem_filterMap] at hfile
    obtain ⟨below, hbelow, hfile⟩ := hfile
    obtain ⟨⟨location, entry⟩, he, hdrop⟩ := List.mem_filterMap.1 hbelow
    -- only a file has something below the root, and that is the end of its location
    have hnames : ∀ s ∈ below, '/' ∉ s.toList := by
      cases entry with
      | directory => cases hdrop
      | file bytes =>
        intro s hs
        refine h location (OrderedMap.mem_keys_of_mem_entries he) s ?_
        have hlocation : location = _ ++ below := dropLeading?_eq_some_iff.1 hdrop
        rw [hlocation]
        exact List.mem_append_right _ hs
    split at hfile
    · cases hfile
    · rename_i hkept
      cases hfile
      rw [inExcluded, dropLast_pathPieces_intercalate hnames]
      exact Bool.not_eq_true _ ▸ hkept

/-! ## Directories of a path -/

/-- All but the last segment of what pieces lead to are directories among the pieces. -/
theorem mem_dropLast_of_follow {dir pieces result : List String} {s : String}
    (h : follow dir pieces = some result) (hs : s ∈ result.dropLast) : s ∈ dir ∨ s ∈ pieces.dropLast := by
  -- what is behind the first piece stays in front of the last one
  have hmono : ∀ {piece : String} {pieces : List String}, s ∈ pieces.dropLast → s ∈ (piece :: pieces).dropLast := by
    intro piece pieces hmem
    rw [List.dropLast_cons_of_ne_nil (by rintro rfl; cases hmem)]
    exact .tail _ hmem
  fun_induction follow dir pieces with
  | case1 dir => cases h; exact .inl (List.dropLast_subset _ hs)
  | case2 dir piece pieces _ ih => exact (ih h).imp_right hmono
  | case3 => cases h
  | case4 dir pieces _ _ ih => exact (ih h).imp (fun hmem => List.dropLast_subset _ hmem) hmono
  | case5 dir piece pieces _ _ ih =>
    rcases ih h with hmem | hmem
    · rcases List.mem_append.1 hmem with hmem | hmem
      · exact .inl hmem
      · rw [List.mem_singleton] at hmem
        subst hmem
        -- the last piece is no directory: what it leads to ends with it
        cases pieces with
        | nil =>
          cases h
          rw [List.dropLast_concat] at hs
          exact .inl hs
        | cons next pieces => exact .inr (.head _)
    · exact .inr (hmono hmem)

/-- An extension adds no directory in front of those of the stem. -/
theorem dropLast_pathPieces_subset (stem after : String) :
    (pathPieces stem).dropLast ⊆ (pathPieces (stem ++ after)).dropLast := by
  obtain ⟨piece, pieces, hafter⟩ := List.exists_cons_of_ne_nil (pathPieces_ne_nil after)
  have hslash : ∀ s ∈ pathPieces stem, '/' ∉ s.toList := fun s => slash_not_mem_of_mem_pathPieces
  have hpieces := LogicalPath.pathPieces_intercalate (pathPieces_ne_nil stem) hslash hafter
  rw [intercalate_pathPieces] at hpieces
  rw [hpieces, List.dropLast_append_of_ne_nil (by simp)]
  exact List.subset_append_left ..

/-- The directories of a component are directories of every file that it is read off. -/
theorem LogicalPath.mem_dropLast_of_ofFile? {file ext s : String} {p : LogicalPath}
    (h : ofFile? file ext = some p) (hs : s ∈ p.segments.dropLast) : s ∈ (pathPieces file).dropLast := by
  obtain ⟨stem, rfl, hstem⟩ := ofFile?_eq_some_iff.1 h
  rcases mem_dropLast_of_follow (from?_eq_some_iff.1 hstem) hs with hmem | hmem
  · cases hmem
  · rw [String.append_assoc]
    exact dropLast_pathPieces_subset stem _ hmem

/-! ## Spellings of a directory -/

theorem LogicalPath.segments_of_isSegment {s : String} {p : LogicalPath} (hs : IsSegment s)
    (h : ofString? s = some p) : p.segments = [s] := by
  have hfollow := from?_eq_some_iff.1 h
  rw [pathPieces_of_not_mem hs.slash_not_mem] at hfollow
  have hlead := follow_segments (List.forall_mem_singleton.2 hs) [] []
  rw [List.append_nil, List.nil_append] at hlead
  rw [hlead, follow, Option.some.injEq] at hfollow
  exact hfollow.symm

/-- A directory that is written without a slash is written as one plain name. -/
theorem LogicalPath.isSegment_of_ofString? {s : String} {p : LogicalPath} (h : ofString? s = some p)
    (hslash : '/' ∉ s.toList) : IsSegment s := by
  have hfollow := from?_eq_some_iff.1 h
  rw [pathPieces_of_not_mem hslash] at hfollow
  refine ⟨?_, ?_, ?_, hslash⟩
  · rintro rfl
    exact p.segments_ne_nil (Option.some.inj hfollow).symm
  · rintro rfl
    exact p.segments_ne_nil (Option.some.inj hfollow).symm
  · rintro rfl
    cases hfollow

/-! ## A tree with one file -/

/-- A tree that holds the empty file of one component and nothing else. -/
def FileSystem.single (root : FilePath) (p : LogicalPath) (ext : String) : FileSystem where
  isFile path := path = p.file root ext
  read path := if path = p.file root ext then .ok "" else .error (.io path .notFound)
  list dir excluded := .ok <|
    if dir = root ∧ inExcluded excluded (pathPieces (p.withExtension ext)) = false then [p.withExtension ext] else []
  finite dir ext' := by
    have hinj : ∀ q q' : LogicalPath, q.file dir ext' = q'.file dir ext' → q = q' :=
      fun q q' h => LogicalPath.eq_of_names_file (congrArg FilePath.names h)
    obtain ⟨qs, hqs⟩ := exists_preimage hinj [p.file root ext]
    exact ⟨qs, fun q hq => hqs q (List.mem_singleton.2 (of_decide_eq_true hq))⟩

theorem FileSystem.skipsExcluded_single (root : FilePath) (p : LogicalPath) (ext : String) :
    (single root p ext).SkipsExcluded := by
  intro dir excluded files hlist file hfile
  cases hlist
  split at hfile
  · rename_i h
    rw [List.mem_singleton] at hfile
    exact hfile ▸ h.2
  · cases hfile

/-- A component right below a directory. -/
def LogicalPath.below (dir : LogicalPath) (name : String) (h : IsSegment name) : LogicalPath where
  segments := dir.segments ++ [name]
  segments_ne_nil := by simp
  isSegment s hs := by
    rcases List.mem_append.1 hs with hs | hs
    · exact dir.isSegment s hs
    · exact List.mem_singleton.1 hs ▸ h

/-! ## Orphans inside the registry directory -/

/-- The path lies inside a directory, as something other than the directory itself. -/
def LogicalPath.Inside (p dir : LogicalPath) : Prop := dir.segments <+: p.segments ∧ p ≠ dir

/-- A registry directory that is written as a plain name is skipped. -/
theorem Project.not_inside_of_mem_orphans {project : Project} {components : ComponentMap}
    {orphans : List LogicalPath} {r p : LogicalPath}
    (hr : LogicalPath.ofString? project.layout.registryDir = some r) (hname : IsSegment project.layout.registryDir)
    (hskips : project.fs.SkipsExcluded) (h : project.orphans components = .ok orphans) (hp : p ∈ orphans) :
    ¬ p.Inside r := by
  rintro ⟨⟨more, hmore⟩, hne⟩
  rw [LogicalPath.segments_of_isSegment hname hr] at hmore
  cases hlist : project.fs.list project.root [project.layout.registryDir] with
  | error f =>
    rw [Project.orphans, hlist] at h
    cases h
  | ok files =>
    rw [orphans_eq_ok hlist, Except.ok.injEq] at h
    obtain ⟨⟨file, hfile, hread⟩, -⟩ := mem_orphansIn_iff.1 (h ▸ hp)
    have hmem : project.layout.registryDir ∈ p.segments.dropLast := by
      have hmore' : more ≠ [] := by
        rintro rfl
        refine hne (LogicalPath.segments_inj ?_)
        rw [← hmore, LogicalPath.segments_of_isSegment hname hr, List.append_nil]
      rw [← hmore, List.dropLast_append_of_ne_nil hmore']
      exact List.mem_append_left _ (List.mem_singleton_self _)
    have hexcluded : inExcluded [project.layout.registryDir] (pathPieces file) = true := by
      refine List.any_eq_true.2 ⟨_, LogicalPath.mem_dropLast_of_ofFile? hread hmem, ?_⟩
      simp
    rw [hskips _ _ _ hlist file hfile] at hexcluded
    cases hexcluded

/-- With another spelling, a component right below the registry directory can be an orphan. -/
theorem Project.exists_orphan_inside {layout : Layout} {r : LogicalPath}
    (hr : LogicalPath.ofString? layout.registryDir = some r) (hname : ¬ IsSegment layout.registryDir) :
    ∃ project : Project, project.layout = layout ∧ project.fs.SkipsExcluded ∧
      ∃ p, project.orphans .empty = .ok [p] ∧ p.Inside r := by
  let p := r.below "x" (by decide)
  let ext := layout.extensions.markup
  let project : Project := ⟨.single default p ext, default, layout, ⟨[]⟩⟩
  -- no directory on the way to the file is called as the registry directory is written
  have hkept : inExcluded [layout.registryDir] (pathPieces (p.withExtension ext)) = false := by
    refine Bool.eq_false_iff.2 fun h => ?_
    obtain ⟨s, hs, hmem⟩ := List.any_eq_true.1 h
    rw [List.contains_iff_mem, List.mem_singleton] at hmem
    subst hmem
    exact hname (LogicalPath.isSegment_of_ofString? hr
      (slash_not_mem_of_mem_pathPieces (List.dropLast_subset _ hs)))
  have hlist : project.fs.list project.root [project.layout.registryDir] = .ok [p.withExtension ext] :=
    congrArg Except.ok (if_pos ⟨rfl, hkept⟩)
  refine ⟨project, rfl, FileSystem.skipsExcluded_single default p ext, p, ?_, List.prefix_append .., ?_⟩
  · have hread : LogicalPath.ofFile? (p.withExtension ext) project.layout.extensions.markup = some p :=
      p.ofFile?_withExtension ext
    rw [orphans_eq_ok hlist, orphansIn, List.filterMap_cons, hread]
    rfl
  · intro h
    have hlength := congrArg (fun q : LogicalPath => q.segments.length) h
    simp [p, LogicalPath.below] at hlength

/-- The registry directory is skipped in every tree exactly when it is written as one plain name. Then it is
also the directory that marks a path as external. -/
theorem registry_skipped_iff {layout : Layout} {r : LogicalPath}
    (hr : LogicalPath.ofString? layout.registryDir = some r) :
    ((∀ (project : Project) (components : ComponentMap) (orphans : List LogicalPath), project.layout = layout →
        project.fs.SkipsExcluded → project.orphans components = .ok orphans → ∀ p ∈ orphans, ¬ p.Inside r) ↔
      IsSegment layout.registryDir) ∧
    (IsSegment layout.registryDir →
      ∀ p : LogicalPath, p.isUnder layout.registryDir = true ↔ p = r ∨ p.Inside r) := by
  refine ⟨⟨fun h => ?_, ?_⟩, fun hname p => ?_⟩
  · by_contra hname
    obtain ⟨project, hlayout, hskips, p, horphans, hinside⟩ := Project.exists_orphan_inside hr hname
    exact h project .empty [p] hlayout hskips horphans p (List.mem_singleton_self p) hinside
  · rintro hname project components orphans rfl hskips horphans p hp
    exact Project.not_inside_of_mem_orphans hr hname hskips horphans hp
  · have htext : r.text = layout.registryDir := by
      rw [LogicalPath.text, LogicalPath.segments_of_isSegment hname hr, String.intercalate_singleton]
    rw [← htext, LogicalPath.isUnder_text_iff]
    constructor
    · intro hinside
      by_cases hp : p = r
      · exact .inl hp
      · exact .inr ⟨hinside, hp⟩
    · rintro (rfl | hinside)
      · exact List.prefix_refl _
      · exact hinside.1

/-- With the usual name, packages are skipped at any depth. -/
theorem registry_skipped_iff_packages :
    let r := topLevel "node_modules" ⟨by decide, by decide, by decide, by decide⟩
    let a := topLevel "a" ⟨by decide, by decide, by decide, by decide⟩
    let d := Disk.ofNames
      [["p", "a.axml"], ["p", "node_modules", "b", "index.axml"], ["p", "c", "node_modules", "d.axml"]]
    LogicalPath.ofString? "node_modules" = some r ∧ d.fileSystem.SkipsExcluded ∧
      (Config.project {} d.fileSystem ⟨["p"]⟩).orphans .empty = .ok [a] ∧ ¬ a.Inside r := by
  intro r a d
  have hr : LogicalPath.ofString? "node_modules" = some r := by decide +kernel
  have hskips : d.fileSystem.SkipsExcluded := Disk.skipsExcluded (by decide +kernel)
  have hlocate : d.locate ⟨["p"]⟩ = .ok ["p"] := eq_ok_of_toOption (by decide +kernel)
  have hfiles : d.fileSystem.list ⟨["p"]⟩ ["node_modules"] = .ok ["a.axml"] :=
    Disk.list_eq_ok hlocate (by decide +kernel) (by decide +kernel)
  have horphans : (Config.project {} d.fileSystem ⟨["p"]⟩).orphans .empty = .ok [a] :=
    (Project.orphans_eq_ok hfiles).trans (congrArg Except.ok (by decide +kernel))
  have hiff := (registry_skipped_iff (show LogicalPath.ofString? ({} : Layout).registryDir = some r from hr)).1
  refine ⟨hr, hskips, horphans, ?_⟩
  exact hiff.2 (by decide) _ .empty [a] rfl hskips horphans a (List.mem_singleton_self a)

/-- A registry directory of two segments is scanned for orphans, although packages are found in it and are
external. -/
theorem orphans_inside_nested_registry :
    let r : LogicalPath := ⟨["vendor", "pkgs"], by decide, by decide⟩
    let x := r.below "x" (by decide)
    let d := Disk.ofNames [["p", "vendor", "pkgs", "x.axml"], ["p", "vendor", "pkgs", "x.json"]]
    let project := Config.project { layout := { registryDir := "vendor/pkgs" } } d.fileSystem ⟨["p"]⟩
    LogicalPath.ofString? "vendor/pkgs" = some r ∧ d.fileSystem.SkipsExcluded ∧
      project.orphans .empty = .ok [x] ∧ x.Inside r ∧
      project.resolveAlias? x "x" = some x ∧ x.isUnder "vendor/pkgs" = true := by
  intro r x d project
  have hskips : d.fileSystem.SkipsExcluded := Disk.skipsExcluded (by decide +kernel)
  have hlocate : d.locate ⟨["p"]⟩ = .ok ["p"] := eq_ok_of_toOption (by decide +kernel)
  have hfiles : d.fileSystem.list ⟨["p"]⟩ ["vendor/pkgs"] = .ok ["vendor/pkgs/x.axml", "vendor/pkgs/x.json"] :=
    Disk.list_eq_ok hlocate (by decide +kernel) (by decide +kernel)
  have horphans : project.orphans .empty = .ok [x] :=
    (Project.orphans_eq_ok hfiles).trans (congrArg Except.ok (by decide +kernel))
  exact ⟨by decide +kernel, hskips, horphans, ⟨by decide +kernel, by decide +kernel⟩, by decide +kernel,
    by decide +kernel⟩

end MiniProgram
