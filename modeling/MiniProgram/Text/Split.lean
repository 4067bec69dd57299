/-
Cutting text at a separator, and taking text off at either end.
-/

namespace MiniProgram.Text

/-- The pieces of `cs` between the separators. There is always at least one. -/
def splitOn (sep : Char) : List Char → List (List Char)
  | [] => [[]]
  | c :: cs =>
    if c = sep then [] :: splitOn sep cs
    else match splitOn sep cs with
      | [] => [[c]]
      | piece :: pieces => (c :: piece) :: pieces

theorem splitOn_ne_nil (sep : Char) (cs : List Char) : splitOn sep cs ≠ [] := by
  induction cs with
  | nil => simp [splitOn]
  | cons c cs ih =>
    simp only [splitOn]
    split
    · simp
    · split <;> simp

/-- No piece holds the separator. -/
theorem not_mem_of_mem_splitOn {sep : Char} {cs piece : List Char}
    (h : piece ∈ splitOn sep cs) : sep ∉ piece := by
  induction cs generalizing piece with
  | nil => simp [splitOn] at h; simp [h]
  | cons c cs ih =>
    simp only [splitOn] at h
    split at h
    · rcases List.mem_cons.1 h with rfl | h
      · simp
      · exact ih h
    · next hc =>
      split at h
      · simp only [List.mem_singleton] at h
        rw [h]; simpa using Ne.symm hc
      · next p ps heq =>
        rw [heq] at ih
        rcases List.mem_cons.1 h with rfl | h
        · have := ih (List.mem_cons_self)
          simp only [List.mem_cons, not_or]
          exact ⟨Ne.symm hc, this⟩
        · exact ih (List.mem_cons_of_mem _ h)

/-- Text without a separator goes to the front of the first piece after it. -/
theorem splitOn_append_of_not_mem {sep : Char} {xs ys piece : List Char} {pieces : List (List Char)}
    (hxs : sep ∉ xs) (hys : splitOn sep ys = piece :: pieces) :
    splitOn sep (xs ++ ys) = (xs ++ piece) :: pieces := by
  induction xs with
  | nil => simpa using hys
  | cons x xs ih =>
    simp only [List.mem_cons, not_or] at hxs
    simp [splitOn, Ne.symm hxs.1, ih hxs.2]

/-- A separator ends a piece. -/
theorem splitOn_append_cons {sep : Char} {xs : List Char} (ys : List Char) (hxs : sep ∉ xs) :
    splitOn sep (xs ++ sep :: ys) = xs :: splitOn sep ys := by
  have h : splitOn sep (sep :: ys) = [] :: splitOn sep ys := by simp [splitOn]
  simpa using splitOn_append_of_not_mem hxs h

/-- The text after `lead`, if `cs` starts with it. -/
def dropLeading? {α : Type} [DecidableEq α] : List α → List α → Option (List α)
  | [], cs => some cs
  | _ :: _, [] => none
  | l :: ls, c :: cs => if l = c then dropLeading? ls cs else none

/-- The text before `tail`, if `cs` ends with it. -/
def dropTrailing? (tail cs : List Char) : Option (List Char) :=
  (dropLeading? tail.reverse cs.reverse).map List.reverse

/-- The stem of a file name with the extension `ext`: what stands before `.ext`. -/
def dropExtension? (ext cs : List Char) : Option (List Char) :=
  dropTrailing? ('.' :: ext) cs

end MiniProgram.Text
