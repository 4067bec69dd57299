/-
The places that the console shows. A record comes with labels from one of five sources: what the lexer
and the builder repaired, interpolation marks, the names of opening tags, and the keys of the alias
table. All of them end within the text that they were found in (`Markup.marksAll_parse`,
`Markup.placed_of_mem_tags`, `slice_aliasKey?`), and that text is the text of the file the record names
(`Project.Locates`). The console loads this file because the record has labels (`recordSource_load`). So it
leaves out none of them, although it would leave out those past the end of the file, and a record is never
shown without a place (`check_locations_shown`).
-/
import MiniProgram.Proofs.Confinement
import MiniProgram.Proofs.Markup.Positions
import MiniProgram.Proofs.Orphans
import MiniProgram.Run

namespace MiniProgram

open Text Markup Console

/-! ## Keys of the alias table -/

/-- What stands before the first occurrence of a text has been counted into its offset. -/
theorem exists_of_occurrence? {needle rest : List Char} {o : Nat} : ∀ {offset : Nat} {cs : List Char},
    occurrence? needle offset cs = some (o, rest) → ∃ before, cs = before ++ rest ∧ o = offset + byteLength before
  | offset, [], h => by
    rw [occurrence?] at h
    split at h
    · cases h
      exact ⟨[], rfl, rfl⟩
    · cases h
  | offset, c :: cs, h => by
    rw [occurrence?] at h
    split at h
    · cases h
      exact ⟨[], rfl, rfl⟩
    · obtain ⟨before, rfl, rfl⟩ := exists_of_occurrence? h
      exact ⟨c :: before, rfl, by rw [byteLength_cons, Nat.add_assoc]⟩

/-- A name between quotes. -/
def quotedKey (name : List Char) : List Char := '"' :: (name ++ ['"'])

theorem byteLength_quotedKey (name : List Char) : byteLength (quotedKey name) = byteLength name + 2 := by
  have hquote : '"'.utf8Size = 1 := by decide
  rw [quotedKey, byteLength_cons, byteLength_append, byteLength_cons, byteLength_nil, hquote]
  omega

/-- Text that starts with a quoted name, cut behind it. -/
theorem eq_quotedKey_append {name rest after : List Char} {c : Char}
    (h : (if c = '"' then dropLeading? (name ++ ['"']) rest else none) = some after) :
    c :: rest = quotedKey name ++ after := by
  split at h
  · rename_i hc
    rw [dropLeading?_eq_some_iff.1 h, hc]
    rfl
  · cases h

/-- A key that is found is the name between quotes, in the text behind what was counted into the offset. -/
theorem exists_of_keySpan? {name cs : List Char} {offset : Nat} {span : Span}
    (h : keySpan? name offset cs = some span) : ∃ before after,
      cs = before ++ (quotedKey name ++ after) ∧ span.start = offset + byteLength before ∧
        span.stop = span.start + byteLength (quotedKey name) := by
  -- the search goes on behind one character, or behind a quoted name that is not a key
  fun_induction keySpan? name offset cs with
  | case1 => cases h
  | case2 offset c rest _ ih =>
    obtain ⟨before, after, rfl, hstart, hstop⟩ := ih h
    exact ⟨c :: before, after, rfl, by rw [hstart, byteLength_cons, Nat.add_assoc], hstop⟩
  | case3 offset c rest after hkey _ stop _ =>
    cases h
    refine ⟨[], after, eq_quotedKey_append hkey, rfl, ?_⟩
    rw [Span.ofBounds_stop, Span.ofBounds_start, byteLength_quotedKey]
    omega
  | case4 offset c rest after hkey _ stop _ ih =>
    obtain ⟨before, after, rfl, hstart, hstop⟩ := ih h
    refine ⟨quotedKey name ++ before, after, ?_, ?_, hstop⟩
    · rw [eq_quotedKey_append hkey, List.append_assoc]
    · rw [hstart, byteLength_append, byteLength_quotedKey]
      omega

/-- The key that declares an alias is where its span says. -/
theorem slice_aliasKey? {source name : String} {span : Span} (h : aliasKey? source name = some span) :
    Slice source.toList span (quotedKey name.toList) := by
  unfold aliasKey? at h
  -- the search starts at the table, or at the beginning if there is none
  cases hfound : occurrence? tableKey 0 source.toList with
  | none =>
    rw [hfound] at h
    obtain ⟨before, after, hcs, hstart, hstop⟩ := exists_of_keySpan? h
    exact ⟨before, after, hcs, by rw [hstart, Nat.zero_add], hstop.symm⟩
  | some found =>
    obtain ⟨o, rest⟩ := found
    rw [hfound] at h
    obtain ⟨skipped, hsource, ho⟩ := exists_of_occurrence? hfound
    obtain ⟨before, after, rfl, hstart, hstop⟩ := exists_of_keySpan? h
    refine ⟨skipped ++ before, after, by rw [hsource, List.append_assoc], ?_, hstop.symm⟩
    rw [hstart, ho, byteLength_append, Nat.zero_add]

/-! ## What is found in markup -/

namespace Markup

theorem placed_of_mem_descendants (source : String) :
    ∀ n ∈ (parse source).document.descendants, n.Placed source.toList := by
  have hfollow := (laid_tokenize source).follow (stream_tokenize source) (fun l _ => Nat.zero_le _)
  rw [Document.descendants_eq_inOrder]
  exact (Builder.State.Placed.empty.run hfollow).1

theorem placed_of_mem_tags {source : String} {t : Tag} (h : t ∈ (parse source).document.tags) :
    t.Placed source.toList := by
  obtain ⟨n, hn, ht⟩ := List.mem_filterMap.1 h
  have hplaced := placed_of_mem_descendants source n hn
  cases n with
  | element u s children =>
    cases ht
    exact ElementPlaced.tag hplaced
  | text value s => cases ht
  | comment value s => cases ht

/-- Every label of a diagnostic marks a place in the source. -/
theorem marksAll_parse (source : String) :
    MarksAll source.toList ((parse source).diagnostics ++ (parse source).document.unbalanced) := by
  have hfollow := (laid_tokenize source).follow (stream_tokenize source) (fun l _ => Nat.zero_le _)
  have hrepairs := (Builder.State.Placed.empty.run hfollow).2.2
  have hfaults : MarksAll source.toList ((faults source).map Fault.diagnostic) := by
    intro d hd
    obtain ⟨f, hf, rfl⟩ := List.mem_map.1 hd
    exact List.forall_mem_singleton.2 (Fault.marks_of_mem_faults hf)
  have hunbalanced : MarksAll source.toList (parse source).document.unbalanced := by
    intro d hd
    obtain ⟨n, hn, hd⟩ := List.mem_flatMap.1 hd
    exact (placed_of_mem_descendants source n hn).unbalanced d hd
  exact marksAll_append.2 ⟨marksAll_append.2 ⟨hfaults, hrepairs⟩, hunbalanced⟩

end Markup

/-! ## Records -/

/-- The record names a file, and its labels end within this text of it. -/
structure Record.LocatedIn (r : Record) (f : SourceFile) : Prop where
  file : r.file = some f.name
  labels : ∀ l ∈ r.labels, l.span.stop ≤ byteLength f.text.toList

section Producers

variable {f metadata markup : SourceFile}

theorem Record.locatedIn_atAlias {r : Record} (hr : r.labels = []) (name label : String) :
    (r.atAlias f name label).LocatedIn f := by
  unfold atAlias
  split
  · rename_i span hspan
    refine ⟨rfl, fun l hl => ?_⟩
    have hl' : l ∈ r.labels ++ [⟨span, label, true⟩] := hl
    rw [hr, List.nil_append, List.mem_singleton] at hl'
    rw [hl']
    exact (slice_aliasKey? hspan).fits.stop.le
  · refine ⟨rfl, fun l hl => ?_⟩
    have hl' : l ∈ r.labels := hl
    rw [hr] at hl'
    cases hl'

theorem Record.file_ofDiagnostic (d : Diagnostic) (file source : String) :
    (Record.ofDiagnostic d file source).file = some file := by
  unfold ofDiagnostic
  cases d.offset <;> rfl

theorem Record.labels_ofDiagnostic (d : Diagnostic) (file source : String) :
    (Record.ofDiagnostic d file source).labels = d.labels := by
  unfold ofDiagnostic
  cases d.offset <;> rfl

theorem locatedIn_of_mem_markupRecords {r : Record} (h : r ∈ markupRecords markup (parse markup.text)) :
    r.LocatedIn markup := by
  obtain ⟨d, hd, rfl⟩ := List.mem_map.1 h
  refine ⟨Record.file_ofDiagnostic .., fun l hl => ?_⟩
  rw [Record.labels_ofDiagnostic] at hl
  exact (marksAll_parse markup.text d hd l hl).stop

theorem locatedIn_undefinedRecord {t : Tag} (h : t ∈ (parse markup.text).document.tags) :
    (undefinedRecord metadata markup t).LocatedIn markup :=
  ⟨rfl, List.forall_mem_singleton.2 (placed_of_mem_tags h).name.fits.stop.le⟩

/-- Every record of an examined component is located in one of the two files that were read. -/
theorem Project.locatedIn_of_mem_examine {project : Project} {p : LogicalPath} {aliases : Manifest.Aliases}
    {r : Record} (h : r ∈ (project.examine p metadata markup aliases).records) :
    r.LocatedIn metadata ∨ r.LocatedIn markup := by
  unfold examine at h
  simp only [List.mem_append] at h
  rcases h with ((h | h) | h) | h
  · obtain ⟨⟨name, target⟩, -, h⟩ := List.mem_filterMap.1 h
    simp only at h
    split at h
    · cases h
    · cases h
      exact .inl (Record.locatedIn_atAlias rfl ..)
  · exact .inr (locatedIn_of_mem_markupRecords h)
  · obtain ⟨t, ht, rfl⟩ := List.mem_map.1 h
    exact .inr (locatedIn_undefinedRecord ((sublist_firstByName ..).mem (List.mem_filter.1 ht).1))
  · obtain ⟨name, -, rfl⟩ := List.mem_map.1 h
    exact .inl (Record.locatedIn_atAlias rfl ..)

end Producers

/-! ## Records of a check -/

namespace Project

variable {project : Project} {p : LogicalPath} {ext : String} {r : Record}

/-- The record is about a file of a component; if it has labels, that file can be read and they end within
its text. -/
structure Locates (project : Project) (r : Record) (p : LogicalPath) (ext : String) : Prop where
  extension : ext ∈ project.layout.extensions.all
  file : r.file = some (p.withExtension ext)
  labels : r.labels ≠ [] → ∃ text, project.fs.read (project.file p ext) = .ok text ∧
    ∀ l ∈ r.labels, l.span.stop ≤ byteLength text.toList

theorem locates_of_locatedIn {f : SourceFile} (h : r.LocatedIn f) (hext : ext ∈ project.layout.extensions.all)
    (hread : project.readFile p ext = .ok f) : project.Locates r p ext := by
  obtain ⟨htext, hname⟩ := readFile_eq_ok_iff.1 hread
  exact ⟨hext, hname ▸ h.file, fun _ => ⟨f.text, htext, h.labels⟩⟩

theorem locates_of_labels_nil (hfile : r.file = some (p.withExtension ext)) (hlabels : r.labels = [])
    (hext : ext ∈ project.layout.extensions.all) : project.Locates r p ext :=
  ⟨hext, hfile, fun hne => absurd hlabels hne⟩

/-- What is found in a component is located in one of its files. -/
theorem exists_locates_of_inspect {found : Inspection} (h : project.inspect p = .ok found)
    (hr : r ∈ found.records) : ∃ ext, project.Locates r p ext := by
  rcases inspect_cases h with ⟨ext, hm, rfl⟩ | ⟨metadata, aliases, markup, -, hmeta, -, hmarkup, rfl⟩
  · rw [List.mem_singleton] at hr
    subst hr
    exact ⟨ext, locates_of_labels_nil rfl rfl (List.mem_of_find?_eq_some hm)⟩
  · rcases locatedIn_of_mem_examine hr with hr | hr
    · exact ⟨_, locates_of_locatedIn hr (by simp [Extensions.all]) hmeta⟩
    · exact ⟨_, locates_of_locatedIn hr (by simp [Extensions.all]) hmarkup⟩

theorem locates_orphanRecord (project : Project) (p : LogicalPath) :
    project.Locates (orphanRecord project.layout.extensions.markup p) p project.layout.extensions.markup :=
  locates_of_labels_nil rfl rfl (by simp [Extensions.all])

end Project

theorem Ledger.mem_records_recordAll {l : Ledger} {key : String} {rs : List Record} {r : Record} :
    r ∈ (l.recordAll key rs).records ↔ r ∈ rs ∨ r ∈ l.records := by
  rw [(records_recordAll key rs l).mem_iff, List.mem_append]

/-- The ledger of a search holds what was found in one of its components. -/
theorem Trail.exists_of_mem_records {t : Trail} {r : Record} (h : r ∈ t.ledger.records) :
    ∃ e ∈ t, r ∈ e.2.records := by
  have hfold : ∀ (t : Trail) (l : Ledger),
      r ∈ (t.foldl (fun l e => l.recordAll e.1.text e.2.records) l).records →
        r ∈ l.records ∨ ∃ e ∈ t, r ∈ e.2.records := by
    intro t
    induction t with
    | nil => exact fun l h => .inl h
    | cons e t ih =>
      intro l h
      rcases ih _ h with h | ⟨e', he', h⟩
      · rcases Ledger.mem_records_recordAll.1 h with h | h
        · exact .inr ⟨e, List.mem_cons_self .., h⟩
        · exact .inl h
      · exact .inr ⟨e', List.mem_cons_of_mem _ he', h⟩
  rcases hfold t .empty h with h | h
  · cases h
  · exact h

/-- Every record of a check is located in a file of a component. -/
theorem exists_locates_of_check {config : Config} {fs : FileSystem} {root : FilePath} {reader : Color.Reader}
    {report : Report} (h : check config fs root reader = .ok report) {r : Record}
    (hr : r ∈ report.ledger.records) :
    ∃ p ext, (config.project fs root).Locates r p ext := by
  obtain ⟨palette, text, pages, entries, found, orphans, -, -, -, -, hfound, -, rfl⟩ := check_eq_ok_iff.1 h
  -- the orphans are filed last, on top of what the search found
  rcases Ledger.mem_records_recordAll.1 hr with hr | hr
  · obtain ⟨p, -, rfl⟩ := List.mem_map.1 hr
    exact ⟨p, _, (config.project fs root).locates_orphanRecord p⟩
  · obtain ⟨seen, trail, hs⟩ := Project.resolve_searched hfound
    rw [hs.ledger] at hr
    obtain ⟨e, he, hr⟩ := Trail.exists_of_mem_records hr
    obtain ⟨ext, hlocates⟩ := Project.exists_locates_of_inspect (hs.inspected e he) hr
    exact ⟨e.1, ext, hlocates⟩

/-! ## On the console -/

namespace Record

variable {r : Record} {file : String}

/-- The place of a record as it is written behind a message. -/
def place (r : Record) (file : String) : String :=
  match r.position with
  | some position => file ++ ":" ++ toString position.line ++ ":" ++ toString position.column
  | none => file

/-- No label is left out where all of them end within the text. -/
theorem shownLabels?_eq_some {source : Source} (hne : r.labels ≠ [])
    (h : ∀ l ∈ r.labels, l.span.stop ≤ byteLength source.text.toList) :
    r.shownLabels? (some source) = some r.labels := by
  have hall : (r.labels.filter fun l => l.span.stop ≤ byteLength source.text.toList) = r.labels :=
    List.filter_eq_self.2 fun l hl => decide_eq_true (h l hl)
  rw [shownLabels?, hall, if_neg (by simpa using hne)]

/-- Without labels the place is written behind the message. -/
theorem display_of_labels_nil (hfile : r.file = some file) (hlabels : r.labels = []) (source : Option Source) :
    r.display source = r.message ++ " (" ++ r.place file ++ ")" := by
  have hsnippet : ¬ r.hasSnippet source = true := by simp [hasSnippet, hlabels]
  rw [display, if_neg hsnippet, hfile, place]
  cases r.position with
  | none => rfl
  | some position =>
    have hrender : position.render = toString position.line ++ ":" ++ toString position.column := rfl
    simp only [hrender, String.append_assoc]

end Record

/-- The console reads the files of components as the project does. -/
def Project.ShownBy (project : Project) (sources : Sources) : Prop :=
  ∀ (p : LogicalPath), ∀ ext ∈ project.layout.extensions.all, ∀ text,
    project.fs.read (project.file p ext) = .ok text →
      sources (p.withExtension ext) = some ⟨p.withExtension ext, text⟩

theorem Ledger.mem_labelledFiles_drain {l : Ledger} {r : Record} {file : String} (hr : r ∈ l.records)
    (hne : r.labels ≠ []) (hfile : r.file = some file) : file ∈ labelledFiles l.drain.1 := by
  refine List.mem_filterMap.2 ⟨r, List.mem_filter.2 ⟨?_, by simpa using hne⟩, hfile⟩
  simp only [records, OrderedMap.values, List.mem_append, List.mem_flatten, List.mem_map] at hr
  -- the groups are put in order, and none of them gets lost
  simp only [drain, Bucket.sorted, List.mem_flatMap, List.mem_append, List.mem_mergeSort]
  rcases hr with ⟨_, ⟨e, he, rfl⟩, hr⟩ | ⟨_, ⟨e, he, rfl⟩, hr⟩
  · exact ⟨e, .inr he, hr⟩
  · exact ⟨e, .inl he, hr⟩

/-- A record with labels is shown with the source of its file. -/
theorem recordSource_load {l : Ledger} {r : Record} {file : String} (sources : Sources) (hr : r ∈ l.records)
    (hne : r.labels ≠ []) (hfile : r.file = some file) :
    recordSource (sources.load l.drain.1) r = sources file := by
  rw [recordSource, hfile, Option.bind_some, Sources.load, if_pos (Ledger.mem_labelledFiles_drain hr hne hfile)]

/-- Places are never lost: a record of a check names a file, its labels end within the text of that file, so
all of them are shown, and if there is none its place is written behind the message. -/
theorem check_locations_shown {config : Config} {fs : FileSystem} {root : FilePath} {reader : Color.Reader}
    {report : Report} (h : check config fs root reader = .ok report) {sources : Sources}
    (hsources : (config.project fs root).ShownBy sources) {r : Record} (hr : r ∈ report.ledger.records) :
    let source := recordSource (sources.load report.ledger.drain.1) r
    ∃ file, r.file = some file ∧
      (r.labels ≠ [] → ∃ text, fs.read (root.extend (pathPieces file)) = .ok text ∧
        (∀ l ∈ r.labels, l.span.stop ≤ byteLength text.toList) ∧
        r.shownLabels? source = some r.labels) ∧
      ((∃ labels, r.shownLabels? source = some labels ∧ labels ≠ []) ∨
        r.display source = r.message ++ " (" ++ r.place file ++ ")") := by
  intro source
  obtain ⟨p, ext, hlocates⟩ := exists_locates_of_check h hr
  have hshown : r.labels ≠ [] → ∃ text, fs.read (root.extend (pathPieces (p.withExtension ext))) = .ok text ∧
      (∀ l ∈ r.labels, l.span.stop ≤ byteLength text.toList) ∧
      r.shownLabels? source = some r.labels := by
    intro hne
    obtain ⟨text, htext, hlabels⟩ := hlocates.labels hne
    have hsource : source = some ⟨p.withExtension ext, text⟩ :=
      (recordSource_load sources hr hne hlocates.file).trans (hsources p ext hlocates.extension text htext)
    exact ⟨text, htext, hlabels, hsource ▸ Record.shownLabels?_eq_some hne hlabels⟩
  refine ⟨p.withExtension ext, hlocates.file, hshown, ?_⟩
  by_cases hne : r.labels = []
  · exact .inr (Record.display_of_labels_nil hlocates.file hne _)
  · obtain ⟨text, -, -, hsome⟩ := hshown hne
    exact .inl ⟨r.labels, hsome, hne⟩

/-! ## On a disk -/

/-- With an extension that has no slash, the name of a file of a component leads to that file. -/
theorem LogicalPath.join_withExtension (p : LogicalPath) (root : FilePath) {ext : String} (h : '/' ∉ ext.toList) :
    root.join (.ofString (p.withExtension ext)) = p.file root ext := by
  have hnames : ∀ s ∈ pathPieces (p.withExtension ext), s ≠ "" :=
    fun s hs => (p.isSegment_of_mem_withExtension h s hs).ne_empty
  have hpieces := Disk.pieces_extend_names (p := root) (pathPieces_ne_nil (p.withExtension ext)) hnames
  -- no piece is empty, so nothing starts at the root of the file system and no slash is doubled
  have hrelative : (FilePath.ofString (p.withExtension ext)).isAbsolute = false := by
    unfold FilePath.isAbsolute
    split
    · rename_i heq
      have hmem : "" ∈ (FilePath.ofString (p.withExtension ext)).pieces := by
        rw [heq]
        exact List.mem_cons_self ..
      exact absurd rfl (hnames "" hmem)
    · rfl
  rw [FilePath.join, if_neg (by rw [hrelative]; exact Bool.false_ne_true), file]
  exact congrArg FilePath.mk hpieces.symm

/-- A console that reads the disk shows what was checked on it. -/
theorem Disk.shownBy_sources (d : Disk) (config : Config) (root : FilePath)
    (hext : ∀ ext ∈ config.layout.extensions.all, '/' ∉ ext.toList) :
    (config.project d.fileSystem root).ShownBy (d.sources root) := by
  intro p ext hmem text htext
  simp only [Config.project, Project.file, Disk.fileSystem] at htext
  rw [sources, p.join_withExtension root (hext ext hmem), htext]
  rfl

/-- A page with metadata that is not quite text, an alias that leads nowhere, and markup that ends within a
value, beside markup that no page reaches. -/
def damagedDisk : Disk :=
  let files : List (String × List UInt8) :=
    [("a.acss", []), ("a.axml", Disk.bytesOf "<view>é\x7b\x7b</x><foo b=\"€"), ("a.js", []),
      ("a.json", Disk.bytesOf "\x7b\"c\":\"" ++ [0xFF, 0xE2, 0x82] ++
        Disk.bytesOf "\",\"usingComponents\":\x7b\"no\":\"./no\"\x7d\x7d"),
      ("app.json", Disk.bytesOf "\x7b\"pages\":[\"a\"]\x7d"), ("b.axml", [])]
  files.foldl (fun d e => d.place ⟨["p", e.1]⟩ (.file e.2)) .empty

/-- On a damaged disk every defect is shown with all its labels, and the orphan with its file. -/
theorem check_locations_shown_damaged :
    let sources := damagedDisk.sources ⟨["p"]⟩
    ∃ report, check {} damagedDisk.fileSystem ⟨["p"]⟩ = .ok report ∧
      report.ledger.records.map (fun r => (r.kind, r.labels.length)) =
        [(.e301, 1), (.e302, 1), (.e101, 1), (.e103, 1), (.e104, 2), (.e105, 1), (.e200, 1), (.e304, 0)] ∧
      ∀ r ∈ report.ledger.records,
        let source := recordSource (sources.load report.ledger.drain.1) r
        ∃ file, r.file = some file ∧
          (r.labels ≠ [] → r.shownLabels? source = some r.labels) ∧
          ((∃ labels, r.shownLabels? source = some labels ∧ labels ≠ []) ∨
            r.display source = r.message ++ " (" ++ r.place file ++ ")") := by
  intro sources
  let a := topLevel "a" ⟨by decide, by decide, by decide, by decide⟩
  let b := topLevel "b" ⟨by decide, by decide, by decide, by decide⟩
  let files := ["a.acss", "a.axml", "a.js", "a.json", "app.json", "b.axml"]
  let project : Project := Config.project {} damagedDisk.fileSystem ⟨["p"]⟩
  have hlocate : damagedDisk.locate ⟨["p"]⟩ = .ok ["p"] := eq_ok_of_toOption (by decide +kernel)
  have hfiles : project.fs.list project.root [project.layout.registryDir] = .ok files :=
    Disk.list_eq_ok hlocate (by decide +kernel) (by decide +kernel)
  obtain ⟨palette, hpalette⟩ := exists_readPalette_default
  obtain ⟨found, hfound, hresult⟩ : ∃ found, project.resolve [a] = .ok found ∧
      ((found.ledger.recordOrphans [b] "axml").records.map (fun r => (r.kind, r.labels.length)),
        orphansIn "axml" found.components files) =
        ([(.e301, 1), (.e302, 1), (.e101, 1), (.e103, 1), (.e104, 2), (.e105, 1), (.e200, 1), (.e304, 0)], [b]) :=
    Project.exists_resolve_of_within (n := 1) (by decide +kernel)
  simp only [Prod.mk.injEq] at hresult
  obtain ⟨hkinds, horphans⟩ := hresult
  have h := check_eq_ok_iff.2 ⟨palette, "\x7b\"pages\":[\"a\"]\x7d", ["a"], [a], found, [b],
    hpalette, eq_ok_of_toOption (by decide +kernel), eq_ok_of_toOption (by decide +kernel),
    eq_ok_of_toOption (by decide +kernel), hfound, (Project.orphans_eq_ok hfiles).trans (congrArg _ horphans), rfl⟩
  refine ⟨_, h, hkinds, fun r hr => ?_⟩
  intro source
  obtain ⟨file, hfile, hlabels, hplace⟩ :=
    check_locations_shown h (damagedDisk.shownBy_sources {} ⟨["p"]⟩ (by decide)) hr
  refine ⟨file, hfile, fun hne => ?_, hplace⟩
  obtain ⟨text, -, -, hshown⟩ := hlabels hne
  exact hshown

end MiniProgram
