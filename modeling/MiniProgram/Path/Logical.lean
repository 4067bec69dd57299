/-
Logical paths. A component is named by the path that its four sibling files share, relative to the
project root and without extension. A logical path is a non-empty list of segments none of which is
empty, `.` or `..`, so it always lies inside the root.
-/
import MiniProgram.Text.Split

namespace MiniProgram

open Text

/-- A name that stands for itself in a path. -/
structure IsSegment (s : String) : Prop where
  ne_empty : s ≠ ""
  ne_dot : s ≠ "."
  ne_dotdot : s ≠ ".."
  slash_not_mem : '/' ∉ s.toList

/-- A normalised path relative to the project root. -/
structure LogicalPath where
  segments : List String
  segments_ne_nil : segments ≠ []
  isSegment : ∀ s ∈ segments, IsSegment s
deriving DecidableEq

/-- The pieces of a path as it is written. -/
def pathPieces (s : String) : List String := (splitOn '/' s.toList).map String.ofList

theorem slash_not_mem_of_mem_pathPieces {s piece : String} (h : piece ∈ pathPieces s) :
    '/' ∉ piece.toList := by
  obtain ⟨cs, hcs, rfl⟩ := List.mem_map.1 h
  rw [String.toList_ofList]
  exact not_mem_of_mem_splitOn hcs

/-- Follow `pieces` from the directory with the given segments: an empty piece and `.` stay, `..`
goes up, any other piece goes down. Going up from the root fails. -/
def follow : List String → List String → Option (List String)
  | dir, [] => some dir
  | dir, piece :: pieces =>
    if piece = "" ∨ piece = "." then follow dir pieces
    else if piece = ".." then
      if dir = [] then none else follow dir.dropLast pieces
    else follow (dir ++ [piece]) pieces

/-- Following pieces keeps to segments. -/
theorem isSegment_of_follow {dir pieces result : List String}
    (hdir : ∀ s ∈ dir, IsSegment s) (hpieces : ∀ s ∈ pieces, '/' ∉ s.toList)
    (h : follow dir pieces = some result) : ∀ s ∈ result, IsSegment s := by
  fun_induction follow dir pieces with
  | case1 dir => simp only [Option.some.injEq] at h; exact h ▸ hdir
  | case2 dir piece pieces _ ih => exact ih hdir (fun s hs => hpieces s (.tail _ hs)) h
  | case3 => simp at h
  | case4 dir pieces _ _ ih =>
    exact ih (fun s hs => hdir s (List.dropLast_subset _ hs)) (fun s hs => hpieces s (.tail _ hs)) h
  | case5 dir piece pieces hskip hup ih =>
    refine ih ?_ (fun s hs => hpieces s (.tail _ hs)) h
    intro s hs
    rcases List.mem_append.1 hs with hs | hs
    · exact hdir s hs
    · rw [List.mem_singleton] at hs
      subst hs
      exact ⟨fun e => hskip (.inl e), fun e => hskip (.inr e), hup, hpieces s (.head _)⟩

namespace LogicalPath

/-- The path reached by following `relative` from a directory inside the root; none if it climbs
out or ends at the root itself. -/
def from? (dir : List String) (hdir : ∀ s ∈ dir, IsSegment s) (relative : String) :
    Option LogicalPath :=
  match h : follow dir (pathPieces relative) with
  | some (s :: ss) =>
    some ⟨s :: ss, by simp,
      isSegment_of_follow hdir (fun _ hp => slash_not_mem_of_mem_pathPieces hp) h⟩
  | _ => none

/-- Normalise a path that is written from the project root. -/
def ofString? (s : String) : Option LogicalPath := from? [] (by simp) s

/-- Segments are joined by `/`. -/
def text (p : LogicalPath) : String := "/".intercalate p.segments

/-- The last segment. -/
def fileName (p : LogicalPath) : String := p.segments.getLast p.segments_ne_nil

/-- The segments of the directory that holds this path; none of them at the root. -/
def directory (p : LogicalPath) : List String := p.segments.dropLast

theorem isSegment_directory (p : LogicalPath) : ∀ s ∈ p.directory, IsSegment s :=
  fun s hs => p.isSegment s (List.dropLast_subset _ hs)

/-- The directory that holds this path, unless that is the root. -/
def parent? (p : LogicalPath) : Option LogicalPath :=
  if h : p.directory = [] then none else some ⟨p.directory, h, p.isSegment_directory⟩

/-- Follow `relative` from this path as a directory. -/
def join? (p : LogicalPath) (relative : String) : Option LogicalPath :=
  from? p.segments p.isSegment relative

/-- Follow `relative` from the directory that holds this path. -/
def resolve? (p : LogicalPath) (relative : String) : Option LogicalPath :=
  from? p.directory p.isSegment_directory relative

/-- The name of the sibling file with this extension, relative to the root. -/
def withExtension (p : LogicalPath) (ext : String) : String := p.text ++ "." ++ ext

/-- Joined segments are cut apart again, and what follows them goes to the last one. -/
theorem pathPieces_intercalate {segments : List String} (hne : segments ≠ [])
    (hs : ∀ s ∈ segments, '/' ∉ s.toList) {after piece : String} {pieces : List String}
    (h : pathPieces after = piece :: pieces) :
    pathPieces ("/".intercalate segments ++ after) =
      segments.dropLast ++ (segments.getLast hne ++ piece) :: pieces := by
  obtain ⟨cs, css, hcs, rfl, rfl⟩ : ∃ cs css, splitOn '/' after.toList = cs :: css ∧
      String.ofList cs = piece ∧ css.map String.ofList = pieces := by
    unfold pathPieces at h
    cases hsplit : splitOn '/' after.toList with
    | nil => exact absurd hsplit (splitOn_ne_nil _ _)
    | cons cs css =>
      rw [hsplit, List.map_cons, List.cons.injEq] at h
      exact ⟨cs, css, rfl, h.1, h.2⟩
  unfold pathPieces
  rw [String.toList_append, String.toList_intercalate]
  induction segments with
  | nil => exact absurd rfl hne
  | cons s rest ih =>
    have hslash : '/' ∉ s.toList := hs s (.head _)
    cases rest with
    | nil =>
      simp only [List.map_cons, List.map_nil, List.intercalate_singleton, List.dropLast_singleton,
        List.getLast_singleton, List.nil_append]
      rw [splitOn_append_of_not_mem hslash hcs]
      simp [String.ofList_append]
    | cons t rest =>
      have ih' := ih (by simp) (fun u hu => hs u (.tail _ hu))
      have hsep : "/".toList = ['/'] := rfl
      rw [hsep] at ih' ⊢
      simp only [List.map_cons, List.intercalate_cons_cons, List.append_assoc,
        List.cons_append, List.nil_append]
      rw [splitOn_append_cons _ hslash, List.map_cons, String.ofList_toList]
      simp only [List.map_cons] at ih'
      rw [ih']
      simp

/-- Cutting undoes joining. -/
theorem pathPieces_joined {names : List String} (hne : names ≠ []) (h : ∀ s ∈ names, '/' ∉ s.toList) :
    pathPieces ("/".intercalate names) = names := by
  have hsplit := pathPieces_intercalate hne h (show pathPieces "" = "" :: [] from rfl)
  rwa [String.append_empty, String.append_empty, List.dropLast_concat_getLast] at hsplit

/-- The text of a path is cut into its segments again. -/
theorem pathPieces_text (p : LogicalPath) : pathPieces p.text = p.segments :=
  pathPieces_joined p.segments_ne_nil fun s hs => (p.isSegment s hs).slash_not_mem

/-- The pieces of the name of a sibling file: the directory, then the file name with the extension,
which may go on after a slash of its own. -/
theorem pathPieces_withExtension (p : LogicalPath) {ext piece : String} {pieces : List String}
    (h : pathPieces ("." ++ ext) = piece :: pieces) :
    pathPieces (p.withExtension ext) = p.directory ++ (p.fileName ++ piece) :: pieces := by
  unfold withExtension text
  rw [String.append_assoc]
  exact pathPieces_intercalate p.segments_ne_nil (fun s hs => (p.isSegment s hs).slash_not_mem) h

/-- The logical path of a file with this extension, named relative to the root. -/
def ofFile? (file ext : String) : Option LogicalPath :=
  (dropExtension? ext.toList file.toList).bind fun stem => ofString? (String.ofList stem)

/-- A directory name without the slashes around it. -/
def trimSlashes (cs : List Char) : List Char :=
  ((cs.dropWhile (· == '/')).reverse.dropWhile (· == '/')).reverse

/-- Whether this path is `dir` or lies inside it. -/
def isUnder (p : LogicalPath) (dir : String) : Bool :=
  let dir := trimSlashes dir.toList
  match dropLeading? dir p.text.toList with
  | some rest => dir.isEmpty || rest.isEmpty || rest.head? == some '/'
  | none => false

/-- Paths are ordered as their texts are, by code point. -/
def compare (p q : LogicalPath) : Ordering := Ord.compare p.text q.text

end LogicalPath

end MiniProgram
