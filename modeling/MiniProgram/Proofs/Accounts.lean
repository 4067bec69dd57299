/-
The accounts of a component. What a search stores and files for a component is settled by the component
alone (`resolve_accounts`): where a file is missing, nothing is known of it and one record names the first
missing file; else every declared alias and every element name is accounted for once. An alias is
unresolved, or a definition that is in use or reported as unused; an element name is undefined, or one
dependency.

The order is that of the declarations for aliases and that of the first opening tags for element names
(`Markup.FirstTags`).
-/
import MiniProgram.Proofs.Entries
import MiniProgram.Proofs.Verdict

namespace MiniProgram

open Text Markup

/-! ## The first tag of each name -/

namespace Markup

/-- Of tags in document order, the first one of each name. -/
structure FirstTags (tags firsts : List Tag) : Prop where
  sublist : firsts.Sublist tags
  names : firsts.map (·.name.value) = (tags.map (·.name.value)).eraseDups
  first : ∀ t ∈ firsts, tags.find? (fun u => u.name.value = t.name.value) = some t

theorem map_name_firstByName : ∀ (seen : List String) (ts : List Tag),
    (firstByName seen ts).map (·.name.value) =
      ((ts.map (·.name.value)).filter fun name => name ∉ seen).eraseDups
  | seen, [] => rfl
  | seen, t :: ts => by
    rw [firstByName, List.map_cons]
    split
    · rename_i ht
      rw [map_name_firstByName seen ts, List.filter_cons_of_neg (by simpa using ht)]
    · rename_i ht
      rw [List.map_cons, map_name_firstByName (t.name.value :: seen) ts,
        List.filter_cons_of_pos (by simpa using ht), List.eraseDups_cons, List.filter_filter]
      refine congrArg (fun names => t.name.value :: names.eraseDups) (List.filter_congr fun name _ => ?_)
      simp only [List.mem_cons, not_or, Bool.decide_and, decide_not]
      rfl

/-- A tag that is kept is the first one of its name. -/
theorem find?_of_mem_firstByName {t : Tag} : ∀ {seen : List String} {ts : List Tag}, t ∈ firstByName seen ts →
    ts.find? (fun u => u.name.value = t.name.value) = some t
  | seen, [], h => by cases h
  | seen, u :: ts, h => by
    -- what is passed over has another name: either that name was seen, or it is seen from now on
    have hseen : t.name.value ∉ seen := (exists_mem_firstByName.1 ⟨t, h, rfl⟩).1
    rw [firstByName] at h
    split at h
    · rename_i hu
      rw [List.find?_cons_of_neg (by simpa using fun e : u.name.value = t.name.value => hseen (e ▸ hu))]
      exact find?_of_mem_firstByName h
    · rcases List.mem_cons.1 h with rfl | h
      · exact List.find?_cons_of_pos (by simp)
      · have hne := (exists_mem_firstByName.1 ⟨t, h, rfl⟩).1
        rw [List.mem_cons, not_or] at hne
        rw [List.find?_cons_of_neg (by simpa using Ne.symm hne.1)]
        exact find?_of_mem_firstByName h

theorem Document.firstTags (d : Document) : FirstTags d.tags d.distinctTags := by
  refine ⟨sublist_firstByName [] d.tags, ?_, fun t ht => find?_of_mem_firstByName ht⟩
  have hall : ((d.tags.map (·.name.value)).filter fun name => name ∉ ([] : List String)) =
      d.tags.map (·.name.value) := List.filter_eq_self.2 fun name _ => by simp
  rw [distinctTags, map_name_firstByName, hall]

instance (d : Document) (name : String) : Decidable (d.HasElement name) :=
  decidable_of_iff _ d.exists_mem_distinctTags

end Markup

/-! ## What the accounts say -/

namespace Project

/-- The alias is declared and leads somewhere. -/
def Resolves (project : Project) (p : LogicalPath) (table : Manifest.Aliases) (name : String) : Prop :=
  ∃ target, (name, target) ∈ table.entries ∧ (project.resolveAlias? p target).isSome = true

instance (project : Project) (p : LogicalPath) (table : Manifest.Aliases) (name : String) :
    Decidable (project.Resolves p table name) :=
  decidable_of_iff _ mem_keys_definitions

/-- An element of this name is in the vocabulary, or its name is an alias that leads somewhere. -/
def Knows (project : Project) (p : LogicalPath) (table : Manifest.Aliases) (name : String) : Prop :=
  project.vocabulary.contains name = true ∨ project.Resolves p table name

instance (project : Project) (p : LogicalPath) (table : Manifest.Aliases) (name : String) :
    Decidable (project.Knows p table name) :=
  inferInstanceAs (Decidable (_ ∨ _))

/-- The first file of a component that is missing, by its extension. -/
def FirstMissing (project : Project) (p : LogicalPath) (ext : String) : Prop :=
  ∃ before after, project.layout.extensions.all = before ++ ext :: after ∧
    (∀ e ∈ before, project.isFile p e = true) ∧ project.isFile p ext = false

/-- The dependency that a tag stands for. The vocabulary comes before the aliases. -/
structure Refers (project : Project) (p : LogicalPath) (table : Manifest.Aliases) (source : String)
    (d : Dependency) (t : Tag) : Prop where
  name : d.name = t.name.value
  position : d.position = lineColumn source t.span.start
  builtin : project.vocabulary.contains t.name.value = true → d.target = .builtin t.name.value
  component : project.vocabulary.contains t.name.value = false → ∃ target q,
    (t.name.value, target) ∈ table.entries ∧ project.resolveAlias? p target = some q ∧ d.target = .component q

/-- The accounts of a component with all its files, where `firsts` are the first tags of its markup. -/
structure Accounted (project : Project) (p : LogicalPath) (metadata markup : SourceFile)
    (table : Manifest.Aliases) (firsts : List Tag) (component : Component) (fatal warning : List Record) :
    Prop where
  path : component.path = p
  /-- The aliases that do not resolve, then the names that mean nothing. -/
  fatal : fatal =
    (table.entries.filter fun e => (project.resolveAlias? p e.2).isNone).map
      (fun e => project.unresolvedRecord metadata e.1 e.2) ++
    (firsts.filter fun t => ¬ project.Knows p table t.name.value).map (undefinedRecord metadata markup)
  /-- The repairs of the parser, the unbalanced marks, then the aliases that resolve and are not used. -/
  warning : warning =
    (parse markup.text).diagnostics.map (Record.ofDiagnostic · markup.name markup.text) ++
    (parse markup.text).document.unbalanced.map (Record.ofDiagnostic · markup.name markup.text) ++
    (table.entries.filter fun e => (project.resolveAlias? p e.2).isSome = true ∧
      ¬ ((parse markup.text).document.HasElement e.1 ∧ project.vocabulary.contains e.1 = false)).map
      (fun e => unusedRecord metadata e.1)
  /-- Each record is of the kind of its defect, and a name that means nothing is reported at its first tag. -/
  kinds : (∀ e ∈ table.entries, (project.unresolvedRecord metadata e.1 e.2).kind = .e301 ∧
      (unusedRecord metadata e.1).kind = .e303) ∧
    ∀ t ∈ firsts, (undefinedRecord metadata markup t).kind = .e302 ∧
      (undefinedRecord metadata markup t).file = some markup.name ∧
      (undefinedRecord metadata markup t).position = some (lineColumn markup.text t.span.start)
  definitions : component.definitions.entries =
    table.entries.filterMap fun e => (project.resolveAlias? p e.2).map (e.1, ·)
  dependencies : List.Forall₂ (project.Refers p table markup.text) component.dependencies
    (firsts.filter fun t => project.Knows p table t.name.value)

end Project

/-! ## Records by severity -/

@[simp] theorem Record.kind_atAlias (r : Record) (metadata : SourceFile) (name label : String) :
    (r.atAlias metadata name label).kind = r.kind := by
  unfold atAlias
  split <;> rfl

theorem Ledger.ofSeverity_append (s : Severity) (rs rs' : List Record) :
    ofSeverity s (rs ++ rs') = ofSeverity s rs ++ ofSeverity s rs' :=
  List.filter_append ..

theorem Ledger.ofSeverity_of_forall {s s' : Severity} {rs : List Record} (h : ∀ r ∈ rs, r.severity = s') :
    ofSeverity s rs = if s' = s then rs else [] := by
  unfold ofSeverity
  split
  · rename_i hs
    exact List.filter_eq_self.2 fun r hr => by simp [h r hr, hs]
  · rename_i hs
    exact List.filter_eq_nil_iff.2 fun r hr => by simp [h r hr, hs]

theorem severity_of_mem_undefined {metadata markup : SourceFile} {ts : List Tag} :
    ∀ r ∈ ts.map (undefinedRecord metadata markup), r.severity = .fatal := by
  rw [List.forall_mem_map]
  exact fun t _ => severity_undefinedRecord metadata markup t

theorem severity_of_mem_unused {metadata : SourceFile} {names : List String} :
    ∀ r ∈ names.map (unusedRecord metadata), r.severity = .warning := by
  rw [List.forall_mem_map]
  exact fun name _ => severity_unusedRecord metadata name

/-! ## The accounts of an examined component -/

namespace Project

variable {project : Project} {p : LogicalPath} {metadata markup : SourceFile} {table : Manifest.Aliases}

theorem unresolved_eq_map : project.unresolved p metadata table =
    (table.entries.filter fun e => (project.resolveAlias? p e.2).isNone).map
      fun e => project.unresolvedRecord metadata e.1 e.2 := by
  unfold unresolved
  induction table.entries with
  | nil => rfl
  | cons e es ih =>
    cases h : project.resolveAlias? p e.2 with
    | none => simp [h, ih]
    | some q => simp [h, ih]

theorem keys_definitions : (project.definitions p table).keys =
    (table.entries.filter fun e => (project.resolveAlias? p e.2).isSome).map Prod.fst := by
  unfold definitions OrderedMap.filterMap OrderedMap.keys
  simp only
  induction table.entries with
  | nil => rfl
  | cons e es ih =>
    cases h : project.resolveAlias? p e.2 with
    | none => simp [h, ih]
    | some q => simp [h, ih]

/-- The unused aliases are those that resolve and are not the name of an element outside the vocabulary. -/
theorem unusedAliases_eq_map {d : Document} :
    unusedAliases (project.definitions p table)
        (d.distinctTags.filterMap (dependency? project.vocabulary (project.definitions p table) markup)) =
      (table.entries.filter fun e => (project.resolveAlias? p e.2).isSome = true ∧
        ¬ (d.HasElement e.1 ∧ project.vocabulary.contains e.1 = false)).map Prod.fst := by
  -- membership decides what a filter keeps, so the two filters of the keys agree
  have hunused : unusedAliases (project.definitions p table)
      (d.distinctTags.filterMap (dependency? project.vocabulary (project.definitions p table) markup)) =
        (project.definitions p table).keys.filter fun name =>
          ¬ (d.HasElement name ∧ project.vocabulary.contains name = false) := by
    refine List.filter_congr fun name hname => ?_
    have hmem : name ∈ unusedAliases (project.definitions p table)
        (d.distinctTags.filterMap (dependency? project.vocabulary (project.definitions p table) markup)) ↔ _ :=
      mem_unusedAliases
    unfold unusedAliases at hmem
    rw [List.mem_filter, and_iff_right hname, and_iff_right hname] at hmem
    rw [Bool.eq_iff_iff, hmem, decide_eq_true_iff]
  rw [hunused, keys_definitions, List.filter_map, List.filter_filter]
  refine congrArg _ (List.filter_congr fun e _ => ?_)
  simp [Bool.and_comm]

theorem knows_iff {name : String} :
    project.Knows p table name ↔ (project.vocabulary.target? (project.definitions p table) name).isSome = true := by
  rw [isSome_target?_iff, mem_keys_definitions]
  rfl

/-- A dependency is made of a tag exactly when its name means something. -/
theorem refers_dependency? {t : Tag} {d : Dependency}
    (h : dependency? project.vocabulary (project.definitions p table) markup t = some d) :
    project.Refers p table markup.text d t := by
  obtain ⟨target, htarget, rfl⟩ := Option.map_eq_some_iff.1 h
  unfold Vocabulary.target? at htarget
  refine ⟨rfl, rfl, fun hv => ?_, fun hv => ?_⟩
  · rw [if_pos hv] at htarget
    cases htarget
    rfl
  · rw [if_neg (by simp [hv])] at htarget
    obtain ⟨q, hq, rfl⟩ := Option.map_eq_some_iff.1 htarget
    obtain ⟨written, hmem, hresolve⟩ := find?_definitions.1 hq
    exact ⟨written, q, hmem, hresolve, rfl⟩

theorem refers_dependencies : ∀ ts : List Tag, List.Forall₂ (project.Refers p table markup.text)
    (ts.filterMap (dependency? project.vocabulary (project.definitions p table) markup))
    (ts.filter fun t => project.Knows p table t.name.value)
  | [] => .nil
  | t :: ts => by
    have hknows : project.Knows p table t.name.value ↔
        (dependency? project.vocabulary (project.definitions p table) markup t).isSome = true := by
      rw [knows_iff, dependency?, Option.isSome_map]
    cases hd : dependency? project.vocabulary (project.definitions p table) markup t with
    | none =>
      rw [hd] at hknows
      rw [List.filterMap_cons_none hd, List.filter_cons_of_neg (by simp [hknows])]
      exact refers_dependencies ts
    | some d =>
      rw [hd] at hknows
      rw [List.filterMap_cons_some hd, List.filter_cons_of_pos (by simp [hknows])]
      exact .cons (refers_dependency? hd) (refers_dependencies ts)

/-- An examined component is accounted for, its records in the two buckets by severity. -/
theorem accounted_examine : project.Accounted p metadata markup table (parse markup.text).document.distinctTags
    (project.examine p metadata markup table).component
    (Ledger.ofSeverity .fatal (project.examine p metadata markup table).records)
    (Ledger.ofSeverity .warning (project.examine p metadata markup table).records) := by
  have hundefined : (parse markup.text).document.distinctTags.filter (fun t =>
      (project.vocabulary.target? (project.definitions p table) t.name.value).isNone) =
        (parse markup.text).document.distinctTags.filter fun t => ¬ project.Knows p table t.name.value := by
    refine List.filter_congr fun t _ => ?_
    rw [Bool.eq_iff_iff, decide_eq_true_iff, knows_iff, Option.not_isSome_iff_eq_none, Option.isNone_iff_eq_none]
  -- each of the four groups of records has one severity, so a bucket holds all of it or nothing
  refine ⟨rfl, ?_, ?_, ⟨fun e _ => ⟨?_, ?_⟩, fun t _ => ⟨rfl, rfl, rfl⟩⟩, rfl, refers_dependencies _⟩
  · simp only [examine, Ledger.ofSeverity_append, hundefined, ← unresolved_eq_map,
      Ledger.ofSeverity_of_forall (fun r hr => severity_of_mem_unresolved hr),
      Ledger.ofSeverity_of_forall (fun r hr => severity_of_mem_markupRecords hr),
      Ledger.ofSeverity_of_forall severity_of_mem_undefined, Ledger.ofSeverity_of_forall severity_of_mem_unused]
    simp
  · simp only [examine, Ledger.ofSeverity_append, unusedAliases_eq_map,
      Ledger.ofSeverity_of_forall (fun r hr => severity_of_mem_unresolved hr),
      Ledger.ofSeverity_of_forall (fun r hr => severity_of_mem_markupRecords hr),
      Ledger.ofSeverity_of_forall severity_of_mem_undefined, Ledger.ofSeverity_of_forall severity_of_mem_unused]
    simp [markupRecords]
  · rw [unresolvedRecord, Record.kind_atAlias]
    rfl
  · rw [unusedRecord, Record.kind_atAlias]
    rfl

theorem firstMissing_of_missing? {ext : String} (h : project.missing? p = some ext) : project.FirstMissing p ext := by
  unfold missing? at h
  obtain ⟨hext, before, after, hall, hbefore⟩ := List.find?_eq_some_iff_append.1 h
  refine ⟨before, after, hall, fun e he => ?_, by simpa using hext⟩
  simpa using hbefore e he

end Project

/-! ## The accounts of a search -/

/-- What a search stores and files for each component it has taken up. Where a file is missing, the component
is empty and one record names the first missing file; else all aliases and element names are accounted
for. -/
theorem resolve_accounts {project : Project} {entries : List LogicalPath} {result : Resolution}
    (h : project.resolve entries = .ok result) {p : LogicalPath} (hp : p ∈ result.components.keys) :
    (¬ project.Complete p → ∃ ext, project.FirstMissing p ext ∧
      result.components.find? p = some (.empty p) ∧
      result.ledger.recordsFor p.text = [project.missingRecord p ext] ∧
      (project.missingRecord p ext).kind = .e300 ∧
      (project.missingRecord p ext).file = some (p.withExtension ext)) ∧
    (project.Complete p → ∃ metadata markup table firsts component,
      project.readFile p project.layout.extensions.metadata = .ok metadata ∧
      Manifest.aliases (project.file p project.layout.extensions.metadata) metadata.text = .ok table ∧
      project.readFile p project.layout.extensions.markup = .ok markup ∧
      FirstTags (parse markup.text).document.tags firsts ∧
      result.components.find? p = some component ∧
      project.Accounted p metadata markup table firsts component (result.ledger.fatal.recordsFor p.text)
        (result.ledger.warning.recordsFor p.text)) := by
  rw [Project.mem_keys_resolve h] at hp
  obtain ⟨found, hi⟩ := Project.resolve_ok_iff.1 ⟨result, h⟩ p hp
  have hfind := (Project.find?_resolve h).2 ⟨hp, found, hi, rfl⟩
  have hrecords := Project.recordsFor_resolve h hp hi
  rcases Project.inspect_cases hi with ⟨ext, hm, rfl⟩ | ⟨metadata, table, markup, hm, hmeta, htable, hmarkup, rfl⟩
  · refine ⟨fun _ => ⟨ext, Project.firstMissing_of_missing? hm, hfind, ?_, rfl, rfl⟩, fun hc => ?_⟩
    · show (result.ledger.bucket .fatal).recordsFor p.text ++ (result.ledger.bucket .warning).recordsFor p.text = _
      rw [hrecords, hrecords]
      rfl
    · rw [Project.missing?_eq_none_iff.2 hc] at hm
      cases hm
  · refine ⟨fun hc => absurd (Project.missing?_eq_none_iff.1 hm) hc, fun _ => ?_⟩
    refine ⟨metadata, markup, table, _, _, hmeta, htable, hmarkup, Document.firstTags _, hfind, ?_⟩
    rw [show result.ledger.fatal.recordsFor p.text = _ from hrecords .fatal,
      show result.ledger.warning.recordsFor p.text = _ from hrecords .warning]
    exact Project.accounted_examine

/-- A component that declares an alias that leads nowhere, one that is used twice, one that is not used and
one that is in the vocabulary, and another component of which only the metadata is there. -/
def tangledFiles : FileSystem := .ofFiles
  [(⟨["p", "a.json"]⟩, "\x7b\"usingComponents\":\x7b\"no\":\"./no\",\"b\":\"./b\",\"c\":\"./b\",\"view\":\"./b\"\x7d\x7d"),
    (⟨["p", "a.js"]⟩, ""), (⟨["p", "a.axml"]⟩, "<view><b/><d/><b/></x></view>"), (⟨["p", "a.acss"]⟩, ""),
    (⟨["p", "b.json"]⟩, "")]
  []

/-- In a tangled project one component is accounted for and of the other one a file is missing. -/
theorem resolve_accounts_tangled :
    let project : Project := ⟨tangledFiles, ⟨["p"]⟩, {}, ⟨[]⟩⟩
    let a := topLevel "a" ⟨by decide, by decide, by decide, by decide⟩
    let b := topLevel "b" ⟨by decide, by decide, by decide, by decide⟩
    ∃ result, project.resolve [a] = .ok result ∧ result.components.keys = [a, b] ∧
      (result.ledger.fatal.recordsFor a.text).map (·.kind) = [.e301, .e302] ∧
      (result.ledger.warning.recordsFor a.text).map (·.kind) = [.e104, .e303, .e303] ∧
      (∃ ext, project.FirstMissing b ext ∧ result.components.find? b = some (.empty b) ∧
        result.ledger.recordsFor b.text = [project.missingRecord b ext]) ∧
      ∃ metadata markup table firsts component, result.components.find? a = some component ∧
        project.Accounted a metadata markup table firsts component (result.ledger.fatal.recordsFor a.text)
          (result.ledger.warning.recordsFor a.text) := by
  intro project a b
  obtain ⟨result, h, hfound⟩ : ∃ result, project.resolve [a] = .ok result ∧
      (result.components.keys, (result.ledger.fatal.recordsFor a.text).map (·.kind),
        (result.ledger.warning.recordsFor a.text).map (·.kind)) =
          ([a, b], [.e301, .e302], [.e104, .e303, .e303]) :=
    Project.exists_resolve_of_within (n := 2) (by decide +kernel)
  simp only [Prod.mk.injEq] at hfound
  obtain ⟨hkeys, hfatal, hwarning⟩ := hfound
  have ha : project.Complete a := by
    unfold Project.Complete
    decide +kernel
  have hb : ¬ project.Complete b := by
    unfold Project.Complete
    decide +kernel
  obtain ⟨ext, hfirst, hempty, hrecords, -⟩ := (resolve_accounts h (by rw [hkeys]; simp)).1 hb
  obtain ⟨metadata, markup, table, firsts, component, -, -, -, -, hfind, haccounted⟩ :=
    (resolve_accounts h (by rw [hkeys]; simp)).2 ha
  exact ⟨result, h, hkeys, hfatal, hwarning, ⟨ext, hfirst, hempty, hrecords⟩, metadata, markup, table, firsts,
    component, hfind, haccounted⟩

end MiniProgram
