/-
The algebra of paths. Cutting a text at its slashes and joining pieces are inverse to each other, and
following pieces is done part by part (`follow_append`): it fails exactly when some start of the pieces
climbs out of the directory (`follow_eq_none_iff`), and without `..` it only leads down
(`follow_of_not_mem_up`). So a path is in normal form (`LogicalPath.ofString?_text`), it is recovered
from the name of its file (`LogicalPath.ofFile?_withExtension`), and it lies under another path exactly
when its segments begin with those of the other (`LogicalPath.isUnder_text_iff`).
-/
import Mathlib.Data.List.Nodup
import MiniProgram.Path.File

namespace MiniProgram

open Text

/-! ## Cutting and joining -/

namespace Text

/-- The pieces of a text make up the text. -/
theorem intercalate_splitOn (sep : Char) (cs : List Char) : [sep].intercalate (splitOn sep cs) = cs := by
  induction cs with
  | nil => simp [splitOn]
  | cons c cs ih =>
    obtain ⟨piece, pieces, hsplit⟩ := List.exists_cons_of_ne_nil (splitOn_ne_nil sep cs)
    rw [hsplit] at ih
    rw [splitOn, hsplit]
    by_cases hc : c = sep
    · rw [if_pos hc, List.intercalate_cons_cons, ih, hc]
      rfl
    · rw [if_neg hc]
      cases pieces with
      | nil => simpa using ih
      | cons piece' pieces => simpa [List.intercalate_cons_cons] using ih

/-- A separator parts the pieces before it from those behind it. -/
theorem splitOn_append_sep (sep : Char) (xs ys : List Char) :
    splitOn sep (xs ++ sep :: ys) = splitOn sep xs ++ splitOn sep ys := by
  induction xs with
  | nil => simp [splitOn]
  | cons x xs ih =>
    obtain ⟨piece, pieces, hsplit⟩ := List.exists_cons_of_ne_nil (splitOn_ne_nil sep xs)
    rw [List.cons_append, splitOn, splitOn, ih, hsplit]
    by_cases hx : x = sep
    · simp [hx]
    · simp [hx]

theorem dropLeading?_eq_some_iff {α : Type} [DecidableEq α] {lead cs rest : List α} :
    dropLeading? lead cs = some rest ↔ cs = lead ++ rest := by
  fun_induction dropLeading? lead cs with
  | case1 cs => simp
  | case2 l ls => simp
  | case3 l ls cs ih => simp [ih]
  | case4 l ls c cs h => simp [Ne.symm h]

/-- The stem of a file is what stands before its extension. -/
theorem dropExtension?_toList {file ext : String} {stem : List Char} :
    dropExtension? ext.toList file.toList = some stem ↔ file = String.ofList stem ++ "." ++ ext := by
  have hlist : file = String.ofList stem ++ "." ++ ext ↔ file.toList = stem ++ '.' :: ext.toList := by
    rw [← String.toList_inj]
    simp
  unfold dropExtension? dropTrailing?
  rw [Option.map_eq_some_iff, hlist]
  constructor
  · rintro ⟨rest, h, rfl⟩
    rw [dropLeading?_eq_some_iff] at h
    rw [← List.reverse_inj, h]
    simp
  · intro h
    exact ⟨stem.reverse, dropLeading?_eq_some_iff.2 (by simp [h]), List.reverse_reverse stem⟩

end Text

theorem intercalate_pathPieces (s : String) : "/".intercalate (pathPieces s) = s := by
  rw [← String.toList_inj, String.toList_intercalate, pathPieces, List.map_map]
  have hid : (String.toList ∘ String.ofList) = id := funext fun cs => String.toList_ofList
  rw [hid, List.map_id]
  exact intercalate_splitOn '/' s.toList

theorem pathPieces_inj {s t : String} (h : pathPieces s = pathPieces t) : s = t := by
  rw [← intercalate_pathPieces s, h, intercalate_pathPieces]

theorem pathPieces_ne_nil (s : String) : pathPieces s ≠ [] := by
  unfold pathPieces
  rw [Ne, List.map_eq_nil_iff]
  exact splitOn_ne_nil _ _

theorem pathPieces_of_not_mem {s : String} (h : '/' ∉ s.toList) : pathPieces s = [s] := by
  have hsplit := Text.splitOn_append_of_not_mem h (show Text.splitOn '/' [] = [] :: [] from rfl)
  rw [List.append_nil] at hsplit
  rw [pathPieces, hsplit, List.map_cons, List.map_nil, String.ofList_toList]

theorem slash_not_mem_dot_append {ext : String} (h : '/' ∉ ext.toList) : '/' ∉ ("." ++ ext).toList := by
  rw [String.toList_append, List.mem_append, not_or]
  exact ⟨by decide, h⟩

/-- A slash parts the pieces before it from those behind it. -/
theorem pathPieces_append_slash (s t : String) : pathPieces (s ++ "/" ++ t) = pathPieces s ++ pathPieces t := by
  have hlist : (s ++ "/" ++ t).toList = s.toList ++ '/' :: t.toList := by simp
  unfold pathPieces
  rw [hlist, splitOn_append_sep, List.map_append]

/-- What has no slash goes to the last piece. -/
theorem pathPieces_append_of_not_mem {s t : String} (ht : '/' ∉ t.toList) :
    pathPieces (s ++ t) = (pathPieces s).dropLast ++ [(pathPieces s).getLast (pathPieces_ne_nil s) ++ t] := by
  have hslash : ∀ piece ∈ pathPieces s, '/' ∉ piece.toList := fun piece => slash_not_mem_of_mem_pathPieces
  have h := LogicalPath.pathPieces_intercalate (pathPieces_ne_nil s) hslash (pathPieces_of_not_mem ht)
  rwa [intercalate_pathPieces] at h

/-! ## Following pieces -/

instance (s : String) : Decidable (IsSegment s) :=
  decidable_of_iff (s ≠ "" ∧ s ≠ "." ∧ s ≠ ".." ∧ '/' ∉ s.toList)
    ⟨fun h => ⟨h.1, h.2.1, h.2.2.1, h.2.2.2⟩, fun h => ⟨h.1, h.2, h.3, h.4⟩⟩

/-- Segments lead down. -/
theorem follow_segments {names : List String} (h : ∀ s ∈ names, IsSegment s) (dir rest : List String) :
    follow dir (names ++ rest) = follow (dir ++ names) rest := by
  induction names generalizing dir with
  | nil => simp
  | cons s names ih =>
    have hs : IsSegment s := h s (.head _)
    rw [List.cons_append, follow, if_neg (by simp [hs.ne_empty, hs.ne_dot]), if_neg hs.ne_dotdot,
      ih (fun t ht => h t (.tail _ ht)), List.append_assoc, List.singleton_append]

/-- Following first some pieces and then more. -/
theorem follow_append (dir xs ys : List String) :
    follow dir (xs ++ ys) = (follow dir xs).bind fun next => follow next ys := by
  fun_induction follow dir xs with
  | case1 dir => rfl
  | case2 dir piece xs h ih => rw [List.cons_append, follow, if_pos h, ih]
  | case3 xs h => rw [List.cons_append, follow, if_neg h, if_pos rfl, if_pos rfl]; rfl
  | case4 dir xs hdir h ih => rw [List.cons_append, follow, if_neg h, if_pos rfl, if_neg hdir, ih]
  | case5 dir piece xs h hup ih => rw [List.cons_append, follow, if_neg h, if_neg hup, ih]

/-- Without `..` all that names something leads down. -/
theorem follow_of_not_mem_up {pieces : List String} (h : ".." ∉ pieces) (dir : List String) :
    follow dir pieces = some (dir ++ pieces.filter FilePath.isName) := by
  fun_induction follow dir pieces with
  | case1 dir => simp
  | case2 dir piece pieces hskip ih =>
    have hname : FilePath.isName piece = false := by rcases hskip with rfl | rfl <;> rfl
    rw [ih (fun hm => h (.tail _ hm)), List.filter_cons_of_neg (by simp [hname])]
  | case3 | case4 => exact absurd (List.mem_cons_self ..) h
  | case5 dir piece pieces hskip hup ih =>
    have hname : FilePath.isName piece = true := by
      rw [not_or] at hskip
      simp [FilePath.isName, hskip]
    rw [ih (fun hm => h (.tail _ hm)), List.filter_cons_of_pos hname]
    simp

/-- A piece that leads one level down. -/
def leadsDown (piece : String) : Bool := piece ≠ "" ∧ piece ≠ "." ∧ piece ≠ ".."

/-- Some start of the pieces leads up more often than there are levels above it to go to. -/
def Climbs (depth : Nat) (pieces : List String) : Prop :=
  ∃ start, start <+: pieces ∧ depth + start.countP leadsDown < start.count ".."

namespace Climbs

theorem not_nil (depth : Nat) : ¬ Climbs depth [] := by
  rintro ⟨start, hstart, hlt⟩
  rw [List.prefix_nil.1 hstart] at hlt
  simp at hlt

/-- The first piece is part of every start that climbs. -/
theorem cons_iff {depth : Nat} {piece : String} {pieces : List String} : Climbs depth (piece :: pieces) ↔
    ∃ start, start <+: pieces ∧
      depth + (piece :: start).countP leadsDown < (piece :: start).count ".." := by
  constructor
  · rintro ⟨start, hstart, hlt⟩
    -- the empty start leads nowhere up, so one that climbs takes in the first piece
    rcases List.prefix_cons_iff.1 hstart with rfl | ⟨rest, rfl, hrest⟩
    · simp at hlt
    · exact ⟨rest, hrest, hlt⟩
  · rintro ⟨start, hstart, hlt⟩
    exact ⟨piece :: start, (List.cons_prefix_cons.2 ⟨rfl, hstart⟩), hlt⟩

theorem up_zero (pieces : List String) : Climbs 0 (".." :: pieces) :=
  cons_iff.2 ⟨[], List.nil_prefix, by decide⟩

theorem up_succ {depth : Nat} {pieces : List String} :
    Climbs (depth + 1) (".." :: pieces) ↔ Climbs depth pieces := by
  rw [cons_iff]
  refine exists_congr fun start => and_congr_right fun _ => ?_
  rw [List.countP_cons_of_neg (by decide), List.count_cons_self]
  omega

theorem stay {depth : Nat} {piece : String} {pieces : List String} (h : piece = "" ∨ piece = ".") :
    Climbs depth (piece :: pieces) ↔ Climbs depth pieces := by
  have hdown : ¬ leadsDown piece = true := by rcases h with rfl | rfl <;> decide
  have hup : piece ≠ ".." := by rcases h with rfl | rfl <;> decide
  rw [cons_iff]
  refine exists_congr fun start => and_congr_right fun _ => ?_
  rw [List.countP_cons_of_neg hdown, List.count_cons_of_ne hup]

theorem down {depth : Nat} {piece : String} {pieces : List String} (h : ¬ (piece = "" ∨ piece = "."))
    (hup : piece ≠ "..") : Climbs depth (piece :: pieces) ↔ Climbs (depth + 1) pieces := by
  have hdown : leadsDown piece = true := by
    rw [not_or] at h
    simp [leadsDown, h, hup]
  rw [cons_iff]
  refine exists_congr fun start => and_congr_right fun _ => ?_
  rw [List.countP_cons_of_pos hdown, List.count_cons_of_ne hup]
  omega

end Climbs

/-- Pieces cannot be followed exactly when they climb out of the directory. -/
theorem follow_eq_none_iff {dir pieces : List String} : follow dir pieces = none ↔ Climbs dir.length pieces := by
  fun_induction follow dir pieces with
  | case1 dir => simp [Climbs.not_nil]
  | case2 dir piece pieces h ih => rw [ih, Climbs.stay h]
  | case3 pieces h => simp [Climbs.up_zero]
  | case4 dir pieces hdir h ih =>
    -- going up takes one level away, and there is one since the directory is not the root
    have hlen : dir.length = dir.dropLast.length + 1 := by
      have := List.length_pos_iff.2 hdir
      rw [List.length_dropLast]
      omega
    rw [ih, hlen, Climbs.up_succ]
  | case5 dir piece pieces h hup ih => rw [ih, Climbs.down h hup, List.length_append, List.length_singleton]

/-! ## Logical paths -/

namespace LogicalPath

variable {p q : LogicalPath} {s file ext : String}

theorem segments_inj (h : p.segments = q.segments) : p = q := by
  cases p; cases q; cases h; rfl

/-- Components with the same text are the same. -/
theorem text_inj (h : p.text = q.text) : p = q :=
  segments_inj (by rw [← pathPieces_text p, ← pathPieces_text q, h])

section From

variable {dir : List String} {hdir : ∀ s ∈ dir, IsSegment s}

/-- A relative path leads to a component when following it ends below the root. -/
theorem from?_eq_some_iff : from? dir hdir s = some p ↔ follow dir (pathPieces s) = some p.segments := by
  unfold from?
  split
  · rename_i t ts heq
    constructor
    · intro h
      cases h
      exact heq
    · intro h
      rw [heq, Option.some.injEq] at h
      exact congrArg some (segments_inj h)
  · rename_i hnone
    obtain ⟨t, ts, hsegments⟩ := List.exists_cons_of_ne_nil p.segments_ne_nil
    rw [hsegments]
    exact iff_of_false (fun h => by cases h) (hnone t ts)

/-- A relative path leads nowhere when it climbs out, or ends at the root itself. -/
theorem from?_eq_none_iff : from? dir hdir s = none ↔
    follow dir (pathPieces s) = none ∨ follow dir (pathPieces s) = some [] := by
  unfold from?
  split
  · rename_i t ts heq
    simp [heq]
  · rename_i hnone
    refine iff_of_true rfl ?_
    rcases hfollow : follow dir (pathPieces s) with _ | _ | ⟨t, ts⟩
    · exact .inl rfl
    · exact .inr rfl
    · exact absurd hfollow (hnone t ts)

/-- Where a relative path leads depends only on what following it comes to. -/
theorem from?_congr {dir' : List String} {hdir' : ∀ s ∈ dir', IsSegment s} {t : String}
    (h : follow dir (pathPieces s) = follow dir' (pathPieces t)) : from? dir hdir s = from? dir' hdir' t := by
  refine Option.ext fun p => ?_
  rw [from?_eq_some_iff, from?_eq_some_iff, h]

end From

/-- A text whose pieces are all segments is the text of a logical path. -/
theorem exists_text_eq (h : ∀ piece ∈ pathPieces s, IsSegment piece) : ∃ p : LogicalPath, p.text = s :=
  ⟨⟨pathPieces s, pathPieces_ne_nil s, h⟩, intercalate_pathPieces s⟩

/-- The segments of a path lead to it from the root. -/
theorem follow_text (p : LogicalPath) : follow [] (pathPieces p.text) = some p.segments := by
  have hlead := follow_segments p.isSegment [] []
  rw [List.append_nil, List.nil_append] at hlead
  rw [pathPieces_text, hlead, follow]

/-- The text of a logical path is in normal form. -/
theorem ofString?_text (p : LogicalPath) : ofString? p.text = some p :=
  from?_eq_some_iff.2 p.follow_text

/-! ## Files -/

theorem withExtension_eq_iff {stem : String} : p.withExtension ext = stem ++ "." ++ ext ↔ p.text = stem := by
  unfold withExtension
  constructor
  · intro h
    rwa [String.append_left_inj, String.append_left_inj] at h
  · rintro rfl
    rfl

theorem slash_not_mem_fileName (p : LogicalPath) : '/' ∉ p.fileName.toList :=
  (p.isSegment _ (List.getLast_mem p.segments_ne_nil)).slash_not_mem

/-- An extension without slashes goes to the file name. -/
theorem pathPieces_withExtension_of_not_mem (p : LogicalPath) (h : '/' ∉ ext.toList) :
    pathPieces (p.withExtension ext) = p.directory ++ [p.fileName ++ ("." ++ ext)] :=
  p.pathPieces_withExtension (pathPieces_of_not_mem (slash_not_mem_dot_append h))

theorem withExtension_inj (h : p.withExtension ext = q.withExtension ext) : p = q :=
  text_inj (withExtension_eq_iff.1 h)

/-- The logical path of a file is the normal form of what stands before the extension. -/
theorem ofFile?_eq_some_iff :
    ofFile? file ext = some p ↔ ∃ stem, file = stem ++ "." ++ ext ∧ ofString? stem = some p := by
  unfold ofFile?
  rw [Option.bind_eq_some_iff]
  constructor
  · rintro ⟨stem, hstem, h⟩
    exact ⟨String.ofList stem, dropExtension?_toList.1 hstem, h⟩
  · rintro ⟨stem, rfl, h⟩
    refine ⟨stem.toList, dropExtension?_toList.2 ?_, ?_⟩
    · rw [String.ofList_toList]
    · rwa [String.ofList_toList]

/-- A component is recovered from the name of its file. -/
theorem ofFile?_withExtension (p : LogicalPath) (ext : String) : ofFile? (p.withExtension ext) ext = some p :=
  ofFile?_eq_some_iff.2 ⟨p.text, rfl, p.ofString?_text⟩

/-! ## Directories -/

/-- The text of a path has a piece on each side of every slash. -/
theorem text_ne_append_slash (p : LogicalPath) (before after : String) (h : p.text = before ++ "/" ++ after) :
    before ≠ "" ∧ after ≠ "" := by
  have hpieces : p.segments = pathPieces before ++ pathPieces after := by
    rw [← pathPieces_text, h, pathPieces_append_slash]
  have hempty : "" ∉ p.segments := fun hm => (p.isSegment "" hm).ne_empty rfl
  rw [hpieces, List.mem_append, not_or] at hempty
  constructor
  · rintro rfl
    exact hempty.1 (List.mem_singleton_self _)
  · rintro rfl
    exact hempty.2 (List.mem_singleton_self _)

/-- There are no slashes around the text of a path. -/
theorem trimSlashes_text (p : LogicalPath) : trimSlashes p.text.toList = p.text.toList := by
  have hstart : p.text.toList.head? ≠ some '/' := by
    intro h
    obtain ⟨rest, hrest⟩ := List.head?_eq_some_iff.1 h
    refine (p.text_ne_append_slash "" (String.ofList rest) ?_).1 rfl
    rw [← String.toList_inj, hrest]
    simp
  have hstop : p.text.toList.reverse.head? ≠ some '/' := by
    intro h
    rw [List.head?_reverse] at h
    obtain ⟨init, hinit⟩ := List.getLast?_eq_some_iff.1 h
    refine (p.text_ne_append_slash (String.ofList init) "" ?_).2 rfl
    rw [← String.toList_inj, hinit]
    simp
  have hdrop : ∀ cs : List Char, cs.head? ≠ some '/' → cs.dropWhile (· == '/') = cs := by
    rintro (_ | ⟨c, cs⟩) hc
    · rfl
    · exact List.dropWhile_cons_of_neg (by simpa using hc)
  unfold trimSlashes
  rw [hdrop _ hstart, hdrop _ hstop, List.reverse_reverse]

/-- A path lies under another one when it is that one, or goes on behind it with a slash. -/
theorem isUnder_text_iff_append {d : LogicalPath} :
    p.isUnder d.text = true ↔ p = d ∨ ∃ rest, p.text = d.text ++ "/" ++ rest := by
  have hne : d.text.toList.isEmpty = false := by
    rw [List.isEmpty_eq_false_iff]
    intro h
    refine d.isSegment "" ?_ |>.ne_empty rfl
    rw [← pathPieces_text, String.toList_inj.1 (show d.text.toList = "".toList from h)]
    exact List.mem_singleton_self _
  -- the text of a path needs no trimming and is not empty, so only the comparison is left
  unfold isUnder
  simp only [trimSlashes_text, hne, Bool.false_or]
  constructor
  · intro h
    split at h
    · rename_i rest hrest
      rw [dropLeading?_eq_some_iff] at hrest
      rcases rest with _ | ⟨c, rest⟩
      · rw [List.append_nil] at hrest
        exact .inl (text_inj (String.toList_inj.1 hrest))
      · obtain rfl : c = '/' := by simpa using h
        refine .inr ⟨String.ofList rest, ?_⟩
        rw [← String.toList_inj, hrest]
        simp
    · cases h
  · rintro (rfl | ⟨rest, hrest⟩)
    · rw [dropLeading?_eq_some_iff.2 (List.append_nil _).symm]
      rfl
    · have hlist : p.text.toList = d.text.toList ++ '/' :: rest.toList := by
        rw [hrest]
        simp
      rw [dropLeading?_eq_some_iff.2 hlist]
      rfl

/-- A path lies under another one exactly when its segments begin with those of the other. -/
theorem isUnder_text_iff {d : LogicalPath} : p.isUnder d.text = true ↔ d.segments <+: p.segments := by
  rw [isUnder_text_iff_append]
  constructor
  · rintro (rfl | ⟨rest, hrest⟩)
    · exact List.prefix_refl _
    · refine ⟨pathPieces rest, ?_⟩
      rw [← pathPieces_text p, hrest, pathPieces_append_slash, pathPieces_text]
  · rintro ⟨more, hmore⟩
    by_cases hnil : more = []
    · rw [hnil, List.append_nil] at hmore
      exact .inl (segments_inj hmore.symm)
    · have hslash : ∀ s ∈ more, '/' ∉ s.toList := fun s hs =>
        (p.isSegment s (hmore ▸ List.mem_append_right _ hs)).slash_not_mem
      refine .inr ⟨"/".intercalate more, pathPieces_inj ?_⟩
      rw [pathPieces_text, pathPieces_append_slash, pathPieces_text, pathPieces_joined hnil hslash, hmore]

end LogicalPath

end MiniProgram
