/-
What an excerpt shows. The line of the offset loses the carriage returns that end it and is cut in two at
the last place before the column where no character is cut (`isGreatest_cutAt`). Each half is shortened and
the leading tabs are widened, which may go on across the cut; since two spaces are as wide as a tab, the
left half stays as wide as it was (`columns_spaced`), and the caret stands right behind it
(`excerpt_caret_aligned`).
-/
import Mathlib.Data.List.DropRight
import Mathlib.Order.Bounds.Defs
import MiniProgram.Proofs.Lines
import MiniProgram.Proofs.Markup.Places
import MiniProgram.Text.Excerpt

namespace MiniProgram.Text

/-! ## Rounding down -/

/-- A text is cut at the last place up to the offset that cuts no character. -/
theorem isGreatest_cutAt (offset : Nat) (cs : List Char) :
    IsGreatest {n | Boundary cs n ∧ n ≤ offset} (byteLength (cutAt offset cs).1) := by
  refine ⟨⟨⟨_, _, (cutAt_append offset cs).symm, rfl⟩, byteLength_cutAt_le offset cs⟩, ?_⟩
  rintro n ⟨⟨before, after, rfl, rfl⟩, hle⟩
  induction before generalizing offset with
  | nil => exact Nat.zero_le _
  | cons c before ih =>
    rw [byteLength_cons] at hle
    have hfits : c.utf8Size ≤ offset := by omega
    have htail := ih (offset - c.utf8Size) (by omega)
    rw [List.cons_append, cutAt, if_pos hfits, byteLength_cons]
    dsimp only
    rw [byteLength_cons]
    omega

namespace Excerpt

/-! ## Widths -/

/-- Tabs and characters outside ASCII are wide. -/
def isWide (c : Char) : Bool := c == '\t' || 128 ≤ c.toNat

/-- The columns of a text: one for each character, and another one for each wide character. -/
def columns (cs : List Char) : Nat := cs.length + cs.countP isWide

theorem charWidth_eq (c : Char) : charWidth c = 1 + if isWide c then 1 else 0 := by
  unfold charWidth isWide
  simp only [Bool.or_eq_true, decide_eq_true_eq, beq_iff_eq]
  split <;> rfl

theorem columns_cons (c : Char) (cs : List Char) : columns (c :: cs) = charWidth c + columns cs := by
  rw [columns, columns, List.length_cons, List.countP_cons, charWidth_eq]
  omega

@[simp] theorem columns_append (xs ys : List Char) : columns (xs ++ ys) = columns xs + columns ys := by
  rw [columns, columns, columns, List.length_append, List.countP_append]
  omega

theorem width_eq_columns (cs : List Char) : width cs = columns cs := by
  have hfold : ∀ (cs : List Char) (n : Nat), cs.foldl (fun n c => n + charWidth c) n = n + columns cs := by
    intro cs
    induction cs with
    | nil => exact fun n => rfl
    | cons c cs ih =>
      intro n
      rw [List.foldl_cons, ih, columns_cons, Nat.add_assoc]
  rw [width, hfold, Nat.zero_add]

/-! ## Tabs -/

/-- How many tabs a text starts with. -/
def leadingTabs (cs : List Char) : Nat := (cs.takeWhile (· == '\t')).length

/-- The first `n` characters are written as two spaces each. -/
def spaced (n : Nat) (cs : List Char) : List Char := (cs.take n).flatMap (fun _ => [' ', ' ']) ++ cs.drop n

theorem spaced_zero (cs : List Char) : spaced 0 cs = cs := rfl

theorem spaced_succ (n : Nat) (c : Char) (cs : List Char) :
    spaced (n + 1) (c :: cs) = ' ' :: ' ' :: spaced n cs := rfl

theorem spaced_append (n : Nat) (xs ys : List Char) :
    spaced n (xs ++ ys) = spaced n xs ++ spaced (n - xs.length) ys := by
  unfold spaced
  rw [List.take_append, List.drop_append, List.flatMap_append]
  rcases Nat.le_total n xs.length with h | h
  · rw [Nat.sub_eq_zero_of_le h]
    simp
  · rw [List.drop_of_length_le h]
    simp

theorem widenTabs_eq_spaced (cs : List Char) : widenTabs cs = spaced (leadingTabs cs) cs := by
  fun_induction widenTabs cs with
  | case1 cs ih => rw [ih]; rfl
  | case2 cs h =>
    cases cs with
    | nil => rfl
    | cons c cs =>
      have hc : c ≠ '\t' := by
        rintro rfl
        exact h cs rfl
      rw [leadingTabs, List.takeWhile_cons, if_neg (by simpa using hc)]
      rfl

/-- Only tabs are written as spaces. -/
theorem eq_tab_of_mem_take {xs ys : List Char} {c : Char} (h : c ∈ xs.take (leadingTabs (xs ++ ys))) :
    c = '\t' := by
  have htabs : xs.take (leadingTabs (xs ++ ys)) <+: (xs ++ ys).takeWhile (· == '\t') := by
    refine List.prefix_of_prefix_length_le ((List.take_prefix _ _).trans (List.prefix_append xs ys))
      (List.takeWhile_prefix _) ?_
    rw [List.length_take]
    exact Nat.min_le_left ..
  have hmem := List.mem_takeWhile_imp (htabs.subset h)
  simpa using hmem

/-- Two spaces are as wide as a tab. -/
theorem columns_spaced {n : Nat} {cs : List Char} (h : ∀ c ∈ cs.take n, c = '\t') :
    columns (spaced n cs) = columns cs := by
  induction n generalizing cs with
  | zero => rw [spaced_zero]
  | succ n ih =>
    cases cs with
    | nil => rfl
    | cons c cs =>
      rw [List.take_succ_cons, List.forall_mem_cons] at h
      obtain ⟨rfl, h⟩ := h
      rw [spaced_succ, columns_cons, columns_cons, columns_cons, ih h, ← Nat.add_assoc]
      rfl

/-! ## Halves -/

/-- The line of an offset, without the carriage returns that end it, is cut in two at the reported column:
the column of the offset, or the end of the line if it is beyond, rounded down to where no character is
cut. -/
structure Cuts (source : String) (offset : Nat) (before after : List Char) : Prop where
  line : ∃ number returns, (lineColumn source offset).line = number + 1 ∧
    (splitLines source.toList)[number]? = some (before ++ after ++ returns) ∧ ∀ c ∈ returns, c = '\r'
  trimmed : (before ++ after).getLast? ≠ some '\r'
  column : IsGreatest {n | Boundary (before ++ after) n ∧
    n ≤ min (lineColumn source offset).column (byteLength (before ++ after))} (byteLength before)

/-- What stands before the caret: the last hundred characters before the column, behind an ellipsis if
there are more. -/
def leftHalf (before after : List Char) : List Char :=
  (if 100 < before.length then "...".toList else []) ++
    spaced (leadingTabs (before.rtake 100 ++ after.take 100)) (before.rtake 100)

/-- What stands from the caret on: the first hundred characters from the column on. Tabs that lead there
from the start are still leading ones. -/
def rightHalf (before after : List Char) : List Char :=
  spaced (leadingTabs (before.rtake 100 ++ after.take 100) - (before.rtake 100).length) (after.take 100)

theorem trimReturns_spec (line : List Char) : ∃ returns, line = trimReturns line ++ returns ∧
    (∀ c ∈ returns, c = '\r') ∧ (trimReturns line).getLast? ≠ some '\r' := by
  have htrim : trimReturns line = line.rdropWhile (· == '\r') := rfl
  refine ⟨line.rtakeWhile (· == '\r'), ?_, fun c hc => ?_, fun hlast => ?_⟩
  · rw [htrim, List.rdropWhile_append_rtakeWhile]
  · simpa using List.mem_rtakeWhile_imp hc
  · rw [htrim] at hlast
    have hne : line.rdropWhile (· == '\r') ≠ [] := by
      intro hnil
      rw [hnil] at hlast
      cases hlast
    refine List.rdropWhile_last_not (· == '\r') line hne ?_
    rw [List.getLast?_eq_some_getLast hne, Option.some.injEq] at hlast
    simp [hlast]

/-- The two halves make up the line that is shown, and the caret stands behind the first one. -/
theorem lines_eq {line before after : List Char} {column : Nat}
    (h : cutAt column (trimReturns line) = (before, after)) :
    lines line column = (leftHalf before after ++ rightHalf before after,
      List.replicate (columns (leftHalf before after)) ' ' ++ ['^']) := by
  have hshown : shownBefore before = before.rtake 100 := rfl
  have hlead : (if before.length > context then ellipsis else []) =
      if 100 < before.length then "...".toList else [] := rfl
  have htabs : columns (spaced (leadingTabs (before.rtake 100 ++ after.take 100)) (before.rtake 100)) =
      columns (before.rtake 100) := columns_spaced fun c hc => eq_tab_of_mem_take hc
  have hdots : columns (if 100 < before.length then "...".toList else []) =
      (if 100 < before.length then "...".toList else []).length := by
    split <;> rfl
  unfold lines
  rw [h]
  dsimp only
  rw [hshown, hlead, widenTabs_eq_spaced, width_eq_columns, leftHalf, rightHalf, columns_append, htabs, hdots]
  refine Prod.ext ?_ rfl
  rw [show context = 100 from rfl, spaced_append, List.append_assoc]

theorem mem_of_mem_spaced {n : Nat} {cs : List Char} {c : Char} (h : c ∈ spaced n cs) : c = ' ' ∨ c ∈ cs := by
  rcases List.mem_append.1 h with h | h
  · obtain ⟨-, -, hc⟩ := List.mem_flatMap.1 h
    exact .inl (by simpa using hc)
  · exact .inr (List.mem_of_mem_drop h)

/-- The halves hold nothing that is not in the line but spaces and dots. -/
theorem mem_of_mem_halves {before after : List Char} {c : Char}
    (h : c ∈ leftHalf before after ++ rightHalf before after) :
    c = '.' ∨ c = ' ' ∨ c ∈ before ++ after := by
  rcases List.mem_append.1 h with h | h
  · rcases List.mem_append.1 h with h | h
    · split at h
      · exact .inl (by simpa using h)
      · cases h
    · rcases mem_of_mem_spaced h with h | h
      · exact .inr (.inl h)
      · exact .inr (.inr (List.mem_append_left _ (List.mem_of_mem_drop h)))
  · rcases mem_of_mem_spaced h with h | h
    · exact .inr (.inl h)
    · exact .inr (.inr (List.mem_append_right _ (List.mem_of_mem_take h)))

end Excerpt

/-! ## Excerpts -/

open Excerpt

/-- An excerpt has two lines. The first shows the line of the offset around the reported column, in two
halves: up to a hundred characters to each side, an ellipsis exactly where more stand before, and each tab
that leads the shown part written as two spaces. The second is a caret behind as many spaces as the left
half takes columns. -/
theorem excerpt_caret_aligned (source : String) (offset : Nat) : ∃ before after, Cuts source offset before after ∧
    splitLines (excerpt source offset).toList = [leftHalf before after ++ rightHalf before after,
      List.replicate (columns (leftHalf before after)) ' ' ++ ['^']] := by
  obtain ⟨number, line, hnumber, hline⟩ := exists_getElem?_lineColumn source offset
  obtain ⟨returns, hreturns, hall, hlast⟩ := trimReturns_spec line
  obtain ⟨before, after, hcut⟩ : ∃ before after,
      cutAt (lineColumn source offset).column (trimReturns line) = (before, after) := ⟨_, _, rfl⟩
  have happend := cutAt_append (lineColumn source offset).column (trimReturns line)
  have hgreatest := isGreatest_cutAt (lineColumn source offset).column (trimReturns line)
  rw [hcut] at happend hgreatest
  dsimp only at happend hgreatest
  have hfree : '\n' ∉ line := not_mem_of_mem_splitOn (List.mem_of_getElem? hline)
  refine ⟨before, after, ⟨⟨number, returns, hnumber, ?_, hall⟩, ?_, ?_⟩, ?_⟩
  · rw [happend, hline, ← hreturns]
  · rwa [happend]
  · -- no place where the line can be cut lies behind its end
    rw [happend]
    refine ⟨⟨hgreatest.1.1, Nat.le_min.2 ⟨hgreatest.1.2, hgreatest.1.1.le⟩⟩, fun n hn => hgreatest.2 ⟨hn.1, ?_⟩⟩
    exact Nat.le_trans hn.2 (Nat.min_le_left ..)
  · have hfirst : '\n' ∉ leftHalf before after ++ rightHalf before after := by
      intro hmem
      rcases mem_of_mem_halves hmem with h | h | h
      · cases h
      · cases h
      · rw [happend] at h
        exact hfree (by rw [hreturns]; exact List.mem_append_left _ h)
    have hsecond : '\n' ∉ List.replicate (columns (leftHalf before after)) ' ' ++ ['^'] := by
      simp [List.mem_replicate]
    have hlines : excerpt source offset = String.ofList (leftHalf before after ++ rightHalf before after ++
        '\n' :: (List.replicate (columns (leftHalf before after)) ' ' ++ ['^'])) := by
      rw [excerpt]
      dsimp only
      rw [hnumber, Nat.add_sub_cancel, hline, Option.getD_some, lines_eq hcut]
    rw [hlines, String.toList_ofList, splitLines_append hfirst hsecond]

/-- Each tab before the mark is two columns, and the caret stands under the `o`. -/
example : excerpt "\t\t<foo/>\r\n" 4 = "    <foo/>\n      ^" := by decide +kernel

end MiniProgram.Text
