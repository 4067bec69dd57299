/-
Excerpts: the source line around an offset and, under it, a caret at the reported column. A long
line is cut to a window around the column.
-/
import MiniProgram.Text.Position

namespace MiniProgram.Text

namespace Excerpt

/-- How many characters are shown on each side of the column. -/
def context : Nat := 100

/-- The mark of a cut on the left. -/
def ellipsis : List Char := ['.', '.', '.']

/-- Tabs and characters outside ASCII take two columns, the others one. -/
def charWidth (c : Char) : Nat :=
  if c = '\t' || 128 ≤ c.toNat then 2 else 1

/-- The columns taken by a run of characters. -/
def width (cs : List Char) : Nat := cs.foldl (fun n c => n + charWidth c) 0

/-- A line without the carriage returns that end it. -/
def trimReturns (line : List Char) : List Char :=
  (line.reverse.dropWhile (· == '\r')).reverse

/-- The last `context` characters before the column. -/
def shownBefore (before : List Char) : List Char :=
  before.drop (before.length - context)

/-- Leading tabs are written as two spaces each. -/
def widenTabs : List Char → List Char
  | '\t' :: cs => ' ' :: ' ' :: widenTabs cs
  | cs => cs

/-- The two lines of an excerpt of `line` at byte `column`. -/
def lines (line : List Char) (column : Nat) : List Char × List Char :=
  let (before, after) := cutAt column (trimReturns line)
  let lead := if before.length > context then ellipsis else []
  let left := shownBefore before
  (lead ++ widenTabs (left ++ after.take context),
    List.replicate (lead.length + width left) ' ' ++ ['^'])

end Excerpt

/-- The excerpt of `source` at byte `offset`. -/
def excerpt (source : String) (offset : Nat) : String :=
  let position := lineColumn source offset
  let line := ((splitLines source.toList)[position.line - 1]?).getD []
  let (shown, caret) := Excerpt.lines line position.column
  String.ofList (shown ++ '\n' :: caret)

end MiniProgram.Text
