/-
Lines and columns. A byte offset is located by scanning the lines of the source in order; lines
count from one, columns are byte offsets into the line and count from zero.
-/
import MiniProgram.Text.Bytes
import MiniProgram.Text.Split

namespace MiniProgram.Text

/-- A place in source text. -/
structure Position where
  line : Nat
  column : Nat
deriving DecidableEq, Repr

namespace Position

/-- Places are written `line:column`. -/
def render (p : Position) : String := s!"{p.line}:{p.column}"

end Position

/-- The lines of `cs`, without their line feeds. There is always at least one. -/
abbrev splitLines (cs : List Char) : List (List Char) := splitOn '\n' cs

/-- Find `offset` in `lines`, where `number` is the number of the first of them. A line takes in the
offset of the line feed that ends it; an offset past the last line is placed at that line's end. -/
def locate (offset number : Nat) : List (List Char) → Position
  | [] => ⟨number, 0⟩
  | [line] => ⟨number, min offset (byteLength line)⟩
  | line :: lines =>
    if offset ≤ byteLength line then ⟨number, offset⟩
    else locate (offset - (byteLength line + 1)) (number + 1) lines

/-- The line and column of byte `offset` of `source`. -/
def lineColumn (source : String) (offset : Nat) : Position :=
  locate offset 1 (splitLines source.toList)

end MiniProgram.Text
