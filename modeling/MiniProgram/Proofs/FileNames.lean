/-
Components, their files and the directories that hold them. A component is recovered from the name of its
file; its file lies below the root by as many plain names as the component has segments
(`FilePath.place_extend`), so different components have different files; and a component lies under
another one exactly when its segments begin with those of the other, which is a partial order and does not
see the slashes around the name of a directory (`files_name_components`).
-/
import Mathlib.Order.Defs.Unbundled
import MiniProgram.Proofs.Confinement
import MiniProgram.Proofs.Paths

namespace MiniProgram

open Text

/-! ## Places below a root -/

namespace FilePath

/-- A name appended to a path does not change where the path starts. -/
theorem anchor_push (root : FilePath) {name : String} (h : IsSegment name) :
    (root.push name).anchor = root.anchor := by
  obtain ⟨pieces⟩ := root
  rcases pieces with _ | ⟨x, _ | ⟨y, rest⟩⟩
  · simp [push, base, anchor, isAbsolute, h.ne_dot]
  · by_cases hx : x = ""
    · simp [push, base, anchor, isAbsolute, h.ne_dot, hx]
    · simp [push, base, anchor, isAbsolute, hx]
  · -- the first piece stays, and there is more than one before and after
    obtain ⟨more, hmore⟩ : ∃ more, base ⟨x :: y :: rest⟩ = x :: more := by
      unfold base
      split
      · exact ⟨_, List.dropLast_cons_of_ne_nil (List.cons_ne_nil y rest)⟩
      · exact ⟨_, rfl⟩
    obtain ⟨z, zs, hz⟩ := List.exists_cons_of_ne_nil (List.append_ne_nil_of_right_ne_nil more
      (List.cons_ne_nil name []))
    have hpush : push ⟨x :: y :: rest⟩ name = ⟨x :: z :: zs⟩ := by
      rw [push, hmore, List.cons_append, hz]
    rw [hpush]
    by_cases hx : x = "" <;> simp [anchor, isAbsolute, hx]

/-- Names lead down from the place of a path. -/
theorem place_extend (root : FilePath) {names : List String} (h : ∀ s ∈ names, IsSegment s) :
    (root.extend names).place = ⟨root.anchor, root.names ++ names⟩ := by
  have hanchor : (root.extend names).anchor = root.anchor := by
    induction names generalizing root with
    | nil => rfl
    | cons s names ih =>
      rw [extend, List.foldl_cons, ← extend, ih _ (fun t ht => h t (.tail _ ht)),
        anchor_push root (h s (.head _))]
  have hnames : names.filter isName = names :=
    List.filter_eq_self.2 fun s hs => LogicalPath.isName_of_isSegment (h s hs)
  rw [place, hanchor, names_extend, hnames]

end FilePath

theorem Place.parts_append (anchor : Anchor) (xs ys : List String) :
    (Place.mk anchor (xs ++ ys)).parts = (Place.mk anchor xs).parts ++ ys := by
  cases anchor <;> rfl

namespace LogicalPath

variable {p q d : LogicalPath}

/-- Below the root, the file of a component has a part for each segment of the component. -/
theorem exists_parts_file (p : LogicalPath) (root : FilePath) {ext : String} (h : '/' ∉ ext.toList) :
    ∃ names, (p.file root ext).place.parts = root.place.parts ++ names ∧
      names.length = p.segments.length ∧ ∀ s ∈ names, IsSegment s := by
  have hsegments := p.isSegment_of_mem_withExtension h
  refine ⟨pathPieces (p.withExtension ext), ?_, ?_, hsegments⟩
  · rw [file, FilePath.place_extend root hsegments, Place.parts_append]
    rfl
  · have hpos := List.length_pos_iff.2 p.segments_ne_nil
    rw [p.pathPieces_withExtension_of_not_mem h, directory, List.length_append, List.length_dropLast,
      List.length_singleton]
    omega

/-! ## Directories -/

instance isPartialOrder_isUnder : IsPartialOrder LogicalPath fun p d => p.isUnder d.text = true where
  refl p := isUnder_text_iff.2 (List.prefix_refl _)
  trans _ _ _ h h' := isUnder_text_iff.2 ((isUnder_text_iff.1 h').trans (isUnder_text_iff.1 h))
  antisymm _ _ h h' := by
    have hle := isUnder_text_iff.1 h'
    exact segments_inj (hle.eq_of_length_le (isUnder_text_iff.1 h).length_le)

/-- So many slashes. -/
def slashes (n : Nat) : String := String.ofList (List.replicate n '/')

theorem dropWhile_replicate_append (n : Nat) (cs : List Char) :
    (List.replicate n '/' ++ cs).dropWhile (· == '/') = cs.dropWhile (· == '/') := by
  refine List.dropWhile_append_of_pos fun c hc => ?_
  rw [List.eq_of_mem_replicate hc]
  rfl

theorem trimSlashes_replicate_append (n : Nat) (cs : List Char) :
    trimSlashes (List.replicate n '/' ++ cs) = trimSlashes cs := by
  unfold trimSlashes
  rw [dropWhile_replicate_append]

/-- Slashes at the end are cut off even where there are no others. -/
theorem trimSlashes_append_replicate (cs : List Char) (n : Nat) :
    trimSlashes (cs ++ List.replicate n '/') = trimSlashes cs := by
  unfold trimSlashes
  rw [List.dropWhile_append]
  split
  · rename_i hempty
    have hnil := dropWhile_replicate_append n []
    rw [List.append_nil] at hnil
    rw [hnil, List.isEmpty_iff.1 hempty]
    rfl
  · rw [List.reverse_append, List.reverse_replicate, dropWhile_replicate_append]

/-- The slashes around the name of a directory say nothing. -/
theorem isUnder_slashes (p : LogicalPath) (dir : String) (m n : Nat) :
    p.isUnder (slashes m ++ dir ++ slashes n) = p.isUnder dir := by
  have htrim : trimSlashes (slashes m ++ dir ++ slashes n).toList = trimSlashes dir.toList := by
    unfold slashes
    rw [String.toList_append, String.toList_append, String.toList_ofList, String.toList_ofList,
      trimSlashes_append_replicate, trimSlashes_replicate_append]
  unfold isUnder
  rw [htrim]

end LogicalPath

open LogicalPath

/-- A component is recovered from the name of its file, its file has a place of its own below the root, by as
many plain names as the component has segments, and it lies under another component exactly when its
segments begin with those of the other; that is a partial order, whatever slashes stand around the name of
the directory. -/
theorem files_name_components :
    (∀ (p : LogicalPath) ext, ofFile? (p.withExtension ext) ext = some p) ∧
    (∀ (root : FilePath) (ext : String), '/' ∉ ext.toList →
      Function.Injective (fun p : LogicalPath => (p.file root ext).place) ∧
      ∀ p : LogicalPath, ∃ names, (p.file root ext).place.parts = root.place.parts ++ names ∧
        names.length = p.segments.length ∧ ∀ s ∈ names, IsSegment s) ∧
    (∀ p d : LogicalPath, p.isUnder d.text = true ↔ d.segments <+: p.segments) ∧
    IsPartialOrder LogicalPath (fun p d => p.isUnder d.text = true) ∧
    ∀ (p : LogicalPath) dir m n, p.isUnder (slashes m ++ dir ++ slashes n) = p.isUnder dir := by
  refine ⟨ofFile?_withExtension, fun root ext h => ⟨fun p q heq => ?_, fun p => p.exists_parts_file root h⟩,
    fun p d => isUnder_text_iff, isPartialOrder_isUnder, isUnder_slashes⟩
  exact eq_of_names_file (congrArg Place.names heq)

/-- A component with a dot in a segment, in a project at `/proj`, and one whose name goes on behind that of
a directory. -/
theorem files_name_components_dotted :
    let p : LogicalPath := ⟨["pages", "a.b", "index"], by decide, by decide⟩
    let root : FilePath := ⟨["", "proj"]⟩
    '/' ∉ "axml".toList ∧ p.withExtension "axml" = "pages/a.b/index.axml" ∧
      ofFile? "pages/a.b/index.axml" "axml" = some p ∧
      (∃ names, (p.file root "axml").place.parts = ["/", "proj"] ++ names ∧ names.length = 3) ∧
      p.isUnder "/pages//" = p.isUnder "pages" ∧ p.isUnder "pages" = true ∧ p.isUnder "pages/a" = false := by
  intro p root
  have hext : '/' ∉ "axml".toList := by decide
  obtain ⟨hofFile, hfile, -, -, hslashes⟩ := files_name_components
  obtain ⟨names, hparts, hlength, -⟩ := (hfile root "axml" hext).2 p
  exact ⟨hext, by decide +kernel, hofFile p "axml", ⟨names, hparts, hlength⟩, hslashes p "pages" 1 2,
    by decide +kernel, by decide +kernel⟩

end MiniProgram
