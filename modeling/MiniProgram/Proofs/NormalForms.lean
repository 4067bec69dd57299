/-
Paths as texts. What is done to logical paths is done to their texts: a text is normalised by following
its pieces from the root, joining normalises two texts with a slash between them, and the parent is what
stands before the last slash, which is not normalised again (`LogicalPath.map_text_parent?` and its like).
The texts that come out of any sequence of these operations are exactly the texts in normal form, and
normalising one changes nothing; joining goes step by step unless it climbs above the root, after which
no step leads back (`path_texts_normal`).
-/
import MiniProgram.Proofs.Paths

namespace MiniProgram

open Text

/-! ## Operations on texts -/

namespace PathText

/-- A non-empty list of segments, joined by slashes. -/
def IsNormal (t : String) : Prop :=
  ∃ segments, segments ≠ [] ∧ (∀ s ∈ segments, IsSegment s) ∧ t = "/".intercalate segments

/-- What is left of a written path once its pieces are followed from the root. -/
def normalize? (s : String) : Option String :=
  (follow [] (pathPieces s)).bind fun segments =>
    if segments = [] then none else some ("/".intercalate segments)

/-- What stands before the extension, normalised. -/
def ofFile? (file ext : String) : Option String :=
  (dropExtension? ext.toList file.toList).bind fun stem => normalize? (String.ofList stem)

/-- What stands before the last slash. -/
def parent? (t : String) : Option String :=
  match t.toList.reverse.dropWhile (· ≠ '/') with
  | [] => none
  | _ :: before => some (String.ofList before.reverse)

def join? (t relative : String) : Option String := normalize? (t ++ "/" ++ relative)

def resolve? (t relative : String) : Option String :=
  match parent? t with
  | some dir => join? dir relative
  | none => normalize? relative

/-- The texts that any sequence of operations comes to. -/
inductive Obtained : String → Prop
  | new {s t : String} : normalize? s = some t → Obtained t
  | ofFile {file ext t : String} : ofFile? file ext = some t → Obtained t
  | parent {t u : String} : Obtained t → parent? t = some u → Obtained u
  | join {t relative u : String} : Obtained t → join? t relative = some u → Obtained u
  | resolve {t relative u : String} : Obtained t → resolve? t relative = some u → Obtained u

/-- What has no slash is passed over when the last slash is looked for. -/
theorem dropWhile_reverse_append (cs : List Char) {name : String} (h : '/' ∉ name.toList) :
    (name.toList.reverse ++ cs).dropWhile (· ≠ '/') = cs.dropWhile (· ≠ '/') := by
  refine List.dropWhile_append_of_pos fun c hc => ?_
  rw [decide_eq_true_eq]
  rintro rfl
  exact h (List.mem_reverse.1 hc)

theorem parent?_append_slash (s : String) {name : String} (h : '/' ∉ name.toList) :
    parent? (s ++ "/" ++ name) = some s := by
  have hlist : (s ++ "/" ++ name).toList.reverse = name.toList.reverse ++ '/' :: s.toList.reverse := by simp
  unfold parent?
  rw [hlist, dropWhile_reverse_append _ h, List.dropWhile_cons_of_neg (by decide)]
  simp

theorem parent?_of_not_mem {name : String} (h : '/' ∉ name.toList) : parent? name = none := by
  have hdrop := dropWhile_reverse_append [] h
  rw [List.append_nil] at hdrop
  unfold parent?
  rw [hdrop]
  rfl

end PathText

/-! ## Paths and their texts -/

namespace LogicalPath

variable {p q d : LogicalPath} {a : String}

theorem isNormal_text (p : LogicalPath) : PathText.IsNormal p.text :=
  ⟨p.segments, p.segments_ne_nil, p.isSegment, rfl⟩

theorem exists_text_of_isNormal {t : String} (h : PathText.IsNormal t) : ∃ p : LogicalPath, p.text = t := by
  obtain ⟨segments, hne, hsegments, rfl⟩ := h
  exact ⟨⟨segments, hne, hsegments⟩, rfl⟩

theorem map_text_ofString? (s : String) : (ofString? s).map text = PathText.normalize? s := by
  unfold PathText.normalize?
  cases h : ofString? s with
  | some p =>
    rw [from?_eq_some_iff.1 h, Option.bind_some, if_neg p.segments_ne_nil]
    rfl
  | none =>
    rcases from?_eq_none_iff.1 h with hf | hf <;> rw [hf] <;> rfl

theorem map_text_ofFile? (file ext : String) : (ofFile? file ext).map text = PathText.ofFile? file ext := by
  unfold ofFile? PathText.ofFile?
  cases dropExtension? ext.toList file.toList with
  | none => rfl
  | some stem => exact map_text_ofString? _

/-- Joining follows the path and then what is joined to it. -/
theorem join?_eq_ofString? (p : LogicalPath) (relative : String) :
    p.join? relative = ofString? (p.text ++ "/" ++ relative) := by
  refine from?_congr ?_
  rw [pathPieces_append_slash, pathPieces_text, follow_segments p.isSegment, List.nil_append]

theorem map_text_join? (p : LogicalPath) (relative : String) :
    (p.join? relative).map text = PathText.join? p.text relative := by
  rw [join?_eq_ofString?, map_text_ofString?]
  rfl

theorem parent?_eq_some_iff : p.parent? = some d ↔ p.directory = d.segments := by
  unfold parent?
  split
  · rename_i h
    refine iff_of_false (by simp) fun hd => d.segments_ne_nil ?_
    rw [← hd, h]
  · rw [Option.some.injEq]
    constructor
    · rintro rfl
      rfl
    · intro hd
      exact segments_inj hd

theorem parent?_eq_none_iff : p.parent? = none ↔ p.directory = [] := by
  unfold parent?
  split <;> simp_all

theorem segments_eq (p : LogicalPath) : p.segments = p.directory ++ [p.fileName] :=
  (List.dropLast_concat_getLast p.segments_ne_nil).symm

theorem map_text_parent? (p : LogicalPath) : p.parent?.map text = PathText.parent? p.text := by
  cases h : p.parent? with
  | some d =>
    have htext : p.text = d.text ++ "/" ++ p.fileName := by
      refine pathPieces_inj ?_
      rw [pathPieces_append_slash, pathPieces_text, pathPieces_text,
        pathPieces_of_not_mem p.slash_not_mem_fileName, ← parent?_eq_some_iff.1 h, ← segments_eq]
    rw [htext, PathText.parent?_append_slash _ p.slash_not_mem_fileName]
    rfl
  | none =>
    have htext : p.text = p.fileName := by
      refine pathPieces_inj ?_
      rw [pathPieces_text, pathPieces_of_not_mem p.slash_not_mem_fileName, segments_eq,
        parent?_eq_none_iff.1 h, List.nil_append]
    rw [htext, PathText.parent?_of_not_mem p.slash_not_mem_fileName]
    rfl

theorem map_text_resolve? (p : LogicalPath) (relative : String) :
    (p.resolve? relative).map text = PathText.resolve? p.text relative := by
  unfold PathText.resolve?
  rw [← map_text_parent?]
  cases h : p.parent? with
  | some d =>
    have hd : p.resolve? relative = d.join? relative := from?_congr (by rw [parent?_eq_some_iff.1 h])
    rw [hd]
    exact d.map_text_join? relative
  | none =>
    have hroot : p.resolve? relative = ofString? relative := from?_congr (by rw [parent?_eq_none_iff.1 h])
    rw [hroot]
    exact map_text_ofString? relative

/-! ## Joining in steps -/

/-- Following two texts with a slash between them. -/
theorem follow_append_slash (dir : List String) (a b : String) :
    follow dir (pathPieces (a ++ "/" ++ b)) =
      (follow dir (pathPieces a)).bind fun next => follow next (pathPieces b) := by
  rw [pathPieces_append_slash, follow_append]

theorem join?_append_slash (h : p.join? a = some q) (b : String) : p.join? (a ++ "/" ++ b) = q.join? b := by
  refine from?_congr ?_
  rw [follow_append_slash, from?_eq_some_iff.1 h, Option.bind_some]

/-- Once above the root, nothing leads back. -/
theorem join?_append_slash_of_climbs (h : Climbs p.segments.length (pathPieces a)) (b : String) :
    p.join? (a ++ "/" ++ b) = none := by
  refine from?_eq_none_iff.2 (.inl ?_)
  rw [follow_append_slash, follow_eq_none_iff.2 h, Option.bind_none]

theorem join?_of_climbs (h : Climbs p.segments.length (pathPieces a)) : p.join? a = none :=
  from?_eq_none_iff.2 (.inl (follow_eq_none_iff.2 h))

/-- What leads to the root itself is followed by what starts there. -/
theorem join?_append_slash_of_root (h : p.join? a = none) (hclimbs : ¬ Climbs p.segments.length (pathPieces a))
    (b : String) : p.join? (a ++ "/" ++ b) = ofString? b := by
  have hroot : follow p.segments (pathPieces a) = some [] :=
    (from?_eq_none_iff.1 h).resolve_left fun hnone => hclimbs (follow_eq_none_iff.1 hnone)
  refine from?_congr ?_
  rw [follow_append_slash, hroot, Option.bind_some]

end LogicalPath

open LogicalPath

namespace PathText

theorem exists_text_of_map {path? : Option LogicalPath} {t : String} (h : path?.map text = some t) :
    ∃ p : LogicalPath, p.text = t := by
  obtain ⟨p, -, hp⟩ := Option.map_eq_some_iff.1 h
  exact ⟨p, hp⟩

/-- Every operation on the text of a logical path comes to the text of a logical path. -/
theorem Obtained.exists_text {t : String} (h : Obtained t) : ∃ p : LogicalPath, p.text = t := by
  induction h with
  | new h => exact exists_text_of_map ((map_text_ofString? _).trans h)
  | ofFile h => exact exists_text_of_map ((map_text_ofFile? _ _).trans h)
  | parent _ h ih =>
    obtain ⟨p, rfl⟩ := ih
    exact exists_text_of_map (p.map_text_parent?.trans h)
  | join _ h ih =>
    obtain ⟨p, rfl⟩ := ih
    exact exists_text_of_map ((p.map_text_join? _).trans h)
  | resolve _ h ih =>
    obtain ⟨p, rfl⟩ := ih
    exact exists_text_of_map ((p.map_text_resolve? _).trans h)

theorem normalize?_text (p : LogicalPath) : normalize? p.text = some p.text := by
  rw [← map_text_ofString?, ofString?_text]
  rfl

end PathText

/-- The operations on logical paths are those on their texts. The texts that any sequence of them comes
to are exactly the texts in normal form, and each of these is the text of the path that it is normalised
to. Joining two texts is joining one after the other: where the first leads to a path, the second goes on
from there; where the first climbs above the root, there is no path, whatever follows; and where it leads
to the root itself, the second starts there. -/
theorem path_texts_normal :
    ((∀ s, (ofString? s).map text = PathText.normalize? s) ∧
      (∀ file ext, (LogicalPath.ofFile? file ext).map text = PathText.ofFile? file ext) ∧
      (∀ p : LogicalPath, p.parent?.map text = PathText.parent? p.text) ∧
      (∀ (p : LogicalPath) relative, (p.join? relative).map text = PathText.join? p.text relative) ∧
      ∀ (p : LogicalPath) relative, (p.resolve? relative).map text = PathText.resolve? p.text relative) ∧
    (∀ t, PathText.Obtained t ↔ PathText.IsNormal t) ∧
    (∀ t, PathText.IsNormal t → ∃ p, ofString? t = some p ∧ p.text = t) ∧
    (∀ p : LogicalPath, ofString? p.text = some p) ∧
    ∀ (p : LogicalPath) (a b : String),
      (∀ q, p.join? a = some q → p.join? (a ++ "/" ++ b) = q.join? b) ∧
      (Climbs p.segments.length (pathPieces a) → p.join? a = none ∧ p.join? (a ++ "/" ++ b) = none) ∧
      (p.join? a = none → ¬ Climbs p.segments.length (pathPieces a) →
        p.join? (a ++ "/" ++ b) = ofString? b) := by
  refine ⟨⟨map_text_ofString?, map_text_ofFile?, map_text_parent?, map_text_join?, map_text_resolve?⟩,
    fun t => ⟨fun h => ?_, fun h => ?_⟩, fun t h => ?_, ofString?_text,
    fun p a b => ⟨fun q h => ?_, fun h => ?_, ?_⟩⟩
  · obtain ⟨p, rfl⟩ := h.exists_text
    exact p.isNormal_text
  · obtain ⟨p, rfl⟩ := exists_text_of_isNormal h
    exact .new (PathText.normalize?_text p)
  · obtain ⟨p, rfl⟩ := exists_text_of_isNormal h
    exact ⟨p, p.ofString?_text, rfl⟩
  · exact join?_append_slash h b
  · exact ⟨join?_of_climbs h, join?_append_slash_of_climbs h b⟩
  · intro h hclimbs
    exact join?_append_slash_of_root h hclimbs b

/-- From `pages/a`, by two steps, above the root, and to the root itself. -/
theorem path_texts_normal_pages :
    let page : LogicalPath := ⟨["pages", "a"], by decide, by decide⟩
    let sibling : LogicalPath := ⟨["pages", "x"], by decide, by decide⟩
    (page.join? "../x" = some sibling ∧ page.join? "../x/./y" = sibling.join? "./y") ∧
    (Climbs page.segments.length (pathPieces "../../..") ∧ page.join? "../../.." = none ∧
      page.join? "../../../pages/a" = none) ∧
    (page.join? "../.." = none ∧ ¬ Climbs page.segments.length (pathPieces "../..") ∧
      page.join? "../../z" = ofString? "z") ∧
    PathText.IsNormal "pages/x" ∧ ∃ p, ofString? "pages/x" = some p ∧ p.text = "pages/x" := by
  intro page sibling
  have hjoin : page.join? "../x" = some sibling := from?_eq_some_iff.2 (by decide +kernel)
  have hclimbs : Climbs page.segments.length (pathPieces "../../..") :=
    follow_eq_none_iff.1 (by decide +kernel)
  have hstays : ¬ Climbs page.segments.length (pathPieces "../..") := fun h =>
    absurd (follow_eq_none_iff.2 h) (by decide +kernel)
  have hroot : page.join? "../.." = none := from?_eq_none_iff.2 (by decide +kernel)
  have hnormal : PathText.IsNormal "pages/x" := ⟨["pages", "x"], by decide, by decide, by decide +kernel⟩
  obtain ⟨-, -, hidentity, -, hsteps⟩ := path_texts_normal
  exact ⟨⟨hjoin, (hsteps page "../x" "./y").1 sibling hjoin⟩,
    ⟨hclimbs, (hsteps page "../../.." "pages/a").2.1 hclimbs⟩,
    ⟨hroot, hstays, (hsteps page "../.." "z").2.2 hroot hstays⟩, hnormal, hidentity _ hnormal⟩

end MiniProgram
