/-
The order of the orphans. They come in the order of the listing, which sorts files by name, extension
included, and so do their records. That is the order of the components themselves unless one name goes on
where another one ends: then the extension of the shorter one is compared with what follows in the longer
one (`lt_append_or_extends`). So the orphans are sorted by path exactly when no orphan extends the text of
another one by something that sorts before the extension (`orphans_sorted_iff`). That holds of listings in
which every markup file is the file of a component. An unnamed one is reported as another path than its name
says, possibly above it, and what that does to the order is left open: next to such a file orphans can be out
of order although none extends another one.
-/
import Mathlib.Data.List.Pairwise
import MiniProgram.Proofs.ByteOrder
import MiniProgram.Proofs.Orphans

namespace MiniProgram

open Text

/-! ## Texts in order -/

/-- A text that sorts before another one does so whatever follows, unless the other one extends it. -/
theorem lt_append_or_extends {s t : String} (h : s < t) :
    (∃ suffix, t = s ++ suffix) ∨ ∀ after after' : String, s ++ after < t ++ after' := by
  have hlist : ∀ {cs ds : List Char}, cs < ds →
      (∃ es, ds = cs ++ es) ∨ ∀ es es' : List Char, cs ++ es < ds ++ es' := by
    intro cs ds hlt
    induction hlt with
    | nil => exact .inl ⟨_, rfl⟩
    | rel hc => exact .inr fun es es' => .rel hc
    | cons hlt ih =>
      rcases ih with ⟨es, rfl⟩ | hall
      · exact .inl ⟨es, rfl⟩
      · exact .inr fun es es' => .cons (hall es es')
  rcases hlist (String.lt_iff.1 h) with ⟨es, hes⟩ | hall
  · refine .inl ⟨String.ofList es, String.toList_inj.1 ?_⟩
    rw [hes, String.toList_append, String.toList_ofList]
  · refine .inr fun after after' => String.lt_iff.2 ?_
    rw [String.toList_append, String.toList_append]
    exact hall _ _

theorem append_lt_append_left_iff {s t u : String} : s ++ t < s ++ u ↔ t < u := by
  have hmono : StrictMono fun t : String => s ++ t := by
    intro t u h
    rw [String.lt_iff, String.toList_append, String.toList_append]
    exact List.append_left_lt (String.lt_iff.1 h)
  exact hmono.lt_iff_lt

/-! ## Listings in order -/

/-- Listed files come in order. -/
def FileSystem.ListsInOrder (fs : FileSystem) : Prop :=
  ∀ root excluded files, fs.list root excluded = .ok files → files.Pairwise (· ≤ ·)

theorem pairwise_sortTexts (ss : List String) : (sortTexts ss).Pairwise (· ≤ ·) := by
  have hsorted := List.pairwise_mergeSort (fun a b c => Std.TransCmp.isLE_trans) Text.isLE_total ss
  exact hsorted.imp Std.LawfulBCmp.isLE_iff_le.1

theorem Disk.listsInOrder (d : Disk) : d.fileSystem.ListsInOrder := by
  intro root excluded files hlist
  rw [show d.fileSystem.list = d.list from rfl, list] at hlist
  split at hlist
  · cases hlist
  · cases hlist
    exact pairwise_sortTexts _

/-! ## Components and their files -/

namespace LogicalPath

variable {p q : LogicalPath} {ext : String}

theorem isLE_compare_iff : (p.compare q).isLE = true ↔ p.text ≤ q.text := by
  unfold LogicalPath.compare
  exact Std.LawfulBCmp.isLE_iff_le

/-- The text of `p` goes on where the text of `q` ends, with something that sorts before the extension. -/
def Undercuts (p q : LogicalPath) (ext : String) : Prop :=
  ∃ suffix, p.text = q.text ++ suffix ∧ suffix ++ "." ++ ext < "." ++ ext

instance (p q : LogicalPath) (ext : String) : Decidable (p.Undercuts q ext) :=
  decidable_of_iff (∃ suffix ∈ dropLeading? q.text.toList p.text.toList,
      String.ofList suffix ++ "." ++ ext < "." ++ ext) <| by
    constructor
    · rintro ⟨suffix, hsuffix, h⟩
      refine ⟨String.ofList suffix, String.toList_inj.1 ?_, h⟩
      rw [dropLeading?_eq_some_iff.1 hsuffix, String.toList_append, String.toList_ofList]
    · rintro ⟨suffix, hsuffix, h⟩
      refine ⟨suffix.toList, dropLeading?_eq_some_iff.2 ?_, ?_⟩
      · rw [hsuffix, String.toList_append]
      · rwa [String.ofList_toList]

theorem Undercuts.withExtension_lt (h : p.Undercuts q ext) : p.withExtension ext < q.withExtension ext := by
  obtain ⟨suffix, hsuffix, hlt⟩ := h
  unfold withExtension
  rw [hsuffix, String.append_assoc, String.append_assoc, String.append_assoc, append_lt_append_left_iff,
    ← String.append_assoc]
  exact hlt

theorem Undercuts.text_lt (h : p.Undercuts q ext) : q.text < p.text := by
  obtain ⟨suffix, hsuffix, hlt⟩ := h
  have hne : suffix ≠ "" := by
    rintro rfl
    rw [String.empty_append] at hlt
    exact lt_irrefl _ hlt
  have hpos : "" < suffix := by
    obtain ⟨c, cs, hcs⟩ := List.exists_cons_of_ne_nil (fun hnil => hne (String.toList_inj.1 hnil))
    rw [String.lt_iff, hcs]
    exact .nil
  calc q.text = q.text ++ "" := String.append_empty.symm
    _ < q.text ++ suffix := append_lt_append_left_iff.2 hpos
    _ = p.text := hsuffix.symm

/-- Where files are in order, components are too, unless the first one undercuts the second one. -/
theorem text_le_or_undercuts (h : p.withExtension ext ≤ q.withExtension ext) :
    p.text ≤ q.text ∨ p.Undercuts q ext := by
  by_cases hle : p.text ≤ q.text
  · exact .inl hle
  · have hlt : q.text < p.text := not_le.1 hle
    unfold withExtension at h
    rw [String.append_assoc, String.append_assoc] at h
    rcases lt_append_or_extends hlt with ⟨suffix, hsuffix⟩ | hall
    · refine .inr ⟨suffix, hsuffix, lt_of_le_of_ne ?_ fun heq => ?_⟩
      · rw [hsuffix, String.append_assoc] at h
        rw [String.append_assoc]
        exact not_lt.1 fun hlt' => not_lt.2 h (append_lt_append_left_iff.2 hlt')
      · -- an empty suffix makes the texts equal
        have hempty : suffix = "" := by
          have hlength := congrArg String.length heq
          simp only [String.length_append] at hlength
          exact String.length_eq_zero_iff.1 (by omega)
        rw [hsuffix, hempty, String.append_empty] at hlt
        exact lt_irrefl _ hlt
    · exact absurd (hall _ _) (not_lt.2 h)

end LogicalPath

/-! ## Orphans -/

section Listing

variable {ext : String} {components : ComponentMap} {files : List String}

/-- The files of the orphans come in the order of the listing. -/
theorem pairwise_withExtension_orphansIn (hnamed : ∀ file ∈ files, ¬ Unnamed ext file)
    (hsorted : files.Pairwise (· ≤ ·)) :
    (orphansIn ext components files).Pairwise fun p q => p.withExtension ext ≤ q.withExtension ext := by
  unfold orphansIn
  refine List.Pairwise.filter _ (List.pairwise_filterMap.2 (hsorted.imp_of_mem ?_))
  intro file file' hfile hfile' hle p hp q hq
  rw [LogicalPath.ofFile?_eq_some_iff_of_not_unnamed (hnamed file hfile)] at hp
  rw [LogicalPath.ofFile?_eq_some_iff_of_not_unnamed (hnamed file' hfile')] at hq
  exact hp ▸ hq ▸ hle

/-- Components whose files are in order are in order themselves exactly when none undercuts another one. -/
theorem pairwise_compare_iff {ps : List LogicalPath}
    (h : ps.Pairwise fun p q => p.withExtension ext ≤ q.withExtension ext) :
    ps.Pairwise (fun p q => (p.compare q).isLE) ↔ ∀ p ∈ ps, ∀ q ∈ ps, ¬ p.Undercuts q ext := by
  constructor
  · intro hsorted p hp q hq hcut
    have hnone : ps.Pairwise fun p q => ¬ p.Undercuts q ext ∧ ¬ q.Undercuts p ext := by
      refine (h.and hsorted).imp fun {a b} hab => ⟨fun hcut => ?_, fun hcut => ?_⟩
      · exact not_lt.2 (LogicalPath.isLE_compare_iff.1 hab.2) hcut.text_lt
      · exact not_lt.2 hab.1 hcut.withExtension_lt
    have hne : p ≠ q := by
      rintro rfl
      exact lt_irrefl _ hcut.text_lt
    have hsymm : Std.Symm fun p q : LogicalPath => ¬ p.Undercuts q ext ∧ ¬ q.Undercuts p ext :=
      ⟨fun _ _ => And.symm⟩
    exact (hnone.forall hp hq hne).1 hcut
  · intro hnone
    refine h.imp_of_mem fun {p q} hp hq hle => ?_
    exact LogicalPath.isLE_compare_iff.2 ((LogicalPath.text_le_or_undercuts hle).resolve_right (hnone p hp q hq))

end Listing

/-- The records of orphans are filed in the order of the orphans, behind what their key holds already. -/
theorem Ledger.recordsFor_recordOrphans (l : Ledger) (orphans : List LogicalPath) (ext : String) :
    ((l.recordOrphans orphans ext).bucket .warning).recordsFor (orphanKey orphans.length) =
      (l.bucket .warning).recordsFor (orphanKey orphans.length) ++ orphans.map (orphanRecord ext) := by
  rw [recordOrphans, recordsFor_recordAll, if_pos rfl, ofSeverity, List.filter_eq_self.2]
  intro r hr
  obtain ⟨p, -, rfl⟩ := List.mem_map.1 hr
  rfl

/-- The orphans come in the order of their files, and their records in the order of the orphans. Where every
markup file is the file of a component, they are sorted by path exactly when none undercuts another one. -/
theorem orphans_sorted_iff (project : Project) {files : List String} (components : ComponentMap) (l : Ledger)
    (hfiles : project.fs.list project.root [project.layout.registryDir] = .ok files)
    (horder : project.fs.ListsInOrder) :
    let ext := project.layout.extensions.markup
    ∃ orphans, project.orphans components = .ok orphans ∧
      ((l.recordOrphans orphans ext).bucket .warning).recordsFor (orphanKey orphans.length) =
        (l.bucket .warning).recordsFor (orphanKey orphans.length) ++ orphans.map (orphanRecord ext) ∧
      ((∀ file ∈ files, ¬ Unnamed ext file) →
        (orphans.Pairwise (fun p q => (p.compare q).isLE) ↔ ∀ p ∈ orphans, ∀ q ∈ orphans, ¬ p.Undercuts q ext)) := by
  intro ext
  refine ⟨_, Project.orphans_eq_ok hfiles, l.recordsFor_recordOrphans _ ext, fun hnamed => ?_⟩
  exact pairwise_compare_iff (pairwise_withExtension_orphansIn hnamed (horder _ _ _ hfiles))

/-- Names that go on with a letter or a slash come behind the extension, so the orphans are sorted. -/
theorem orphans_sorted_iff_letters :
    let a := topLevel "a" ⟨by decide, by decide, by decide, by decide⟩
    let ab := topLevel "ab" ⟨by decide, by decide, by decide, by decide⟩
    let c : LogicalPath := ⟨["a", "c"], by decide, by decide⟩
    let d := Disk.ofNames [["p", "a.axml"], ["p", "a.json"], ["p", "a", "c.axml"], ["p", "ab.axml"]]
    let files := ["a.axml", "a.json", "a/c.axml", "ab.axml"]
    d.fileSystem.list ⟨["p"]⟩ ["node_modules"] = .ok files ∧ d.fileSystem.ListsInOrder ∧
      ∃ orphans, (Config.project {} d.fileSystem ⟨["p"]⟩).orphans .empty = .ok orphans ∧ orphans = [a, c, ab] ∧
        ((Ledger.empty.recordOrphans orphans "axml").bucket .warning).recordsFor (orphanKey 3) =
          [a, c, ab].map (orphanRecord "axml") ∧
        orphans.Pairwise fun p q => (p.compare q).isLE := by
  intro a ab c d files
  have hlocate : d.locate ⟨["p"]⟩ = .ok ["p"] := eq_ok_of_toOption (by decide +kernel)
  have hfiles : d.fileSystem.list ⟨["p"]⟩ ["node_modules"] = .ok files :=
    Disk.list_eq_ok hlocate (by decide +kernel) (by decide +kernel)
  obtain ⟨orphans, horphans, hrecords, hiff⟩ :=
    orphans_sorted_iff (Config.project {} d.fileSystem ⟨["p"]⟩) .empty .empty hfiles d.listsInOrder
  have hlist : orphans = [a, c, ab] := by
    rw [Project.orphans_eq_ok hfiles, Except.ok.injEq] at horphans
    rw [← horphans]
    decide +kernel
  subst hlist
  exact ⟨hfiles, d.listsInOrder, _, horphans, rfl, hrecords, (hiff (by decide +kernel)).2 (by decide +kernel)⟩

/-- A hyphen sorts before the dot of the extension, so the longer one of two names comes first. -/
theorem orphans_of_hyphen :
    let a := topLevel "a" ⟨by decide, by decide, by decide, by decide⟩
    let ab := topLevel "a-b" ⟨by decide, by decide, by decide, by decide⟩
    let d := Disk.ofNames [["p", "a-b.axml"], ["p", "a.axml"]]
    d.fileSystem.list ⟨["p"]⟩ ["node_modules"] = .ok ["a-b.axml", "a.axml"] ∧
      (Config.project {} d.fileSystem ⟨["p"]⟩).orphans .empty = .ok [ab, a] ∧
      ¬ [ab, a].Pairwise fun p q => (p.compare q).isLE := by
  intro a ab d
  have hlocate : d.locate ⟨["p"]⟩ = .ok ["p"] := eq_ok_of_toOption (by decide +kernel)
  have hfiles : d.fileSystem.list ⟨["p"]⟩ ["node_modules"] = .ok ["a-b.axml", "a.axml"] :=
    Disk.list_eq_ok hlocate (by decide +kernel) (by decide +kernel)
  refine ⟨hfiles, (Project.orphans_eq_ok hfiles).trans (congrArg Except.ok ?_), ?_⟩
  · decide +kernel
  · decide +kernel

-- an unnamed file beside a named one: neither orphan undercuts the other one, and they are out of order
example :
    let x := topLevel "x" ⟨by decide, by decide, by decide, by decide⟩
    let xa : LogicalPath := ⟨["x", "a"], by decide, by decide⟩
    orphansIn "axml" .empty ["x/a.axml", "x/y/...axml"] = [xa, x] ∧ Unnamed "axml" "x/y/...axml" ∧
      (∀ p ∈ [xa, x], ∀ q ∈ [xa, x], ¬ p.Undercuts q "axml") ∧
      ¬ [xa, x].Pairwise fun p q => (p.compare q).isLE := by
  decide +kernel

end MiniProgram
