/-
What can be wrong with a TOML text, and how it is reported: with the line it is in and marks under
the place.
-/
import MiniProgram.Text.Bytes
import MiniProgram.Text.Split

namespace MiniProgram.Toml

open Text

/-- A reason, and where the bytes start and stop that it is about, if it is about some. -/
structure Fault where
  place : Option (Nat × Nat)
  reason : String
deriving DecidableEq, Repr

namespace Fault

/-- A fault about bytes of the text. -/
def within (start stop : Nat) (reason : String) : Fault := ⟨some (start, stop), reason⟩

/-- A fault in front of a byte. -/
def point (offset : Nat) (reason : String) : Fault := within offset offset reason

/-- A fault about no bytes in particular. -/
def overall (reason : String) : Fault := ⟨none, reason⟩

/-- The number of the line that holds a byte, from zero, and the column in characters. A byte at
the end of the text belongs to its last character, and counts one column more. -/
def position (source : String) (offset : Nat) : Nat × Nat :=
  let bytes := source.toUTF8.toList
  let inside := min offset (bytes.length - 1)
  let before := bytes.take inside
  let line := before.count 10
  let lineBytes := (before.reverse.takeWhile (· != 10)).reverse
  let column := match decodeStrict? (lineBytes ++ (bytes.drop inside).take 1) with
    | some cs => cs.length - 1
    | none => lineBytes.length
  (line, column + (offset - inside))

/-- The line of `source` that holds a place, with its number before it and marks under the place. -/
def excerpt (source : String) (start stop : Nat) : String :=
  let (line, column) := position source start
  let number := toString (line + 1)
  let content := ((splitOn '\n' source.toList)[line]?).getD []
  let marks := max 1 (min (stop - start) (byteLength content - column))
  let gutter := String.ofList (List.replicate (number.length + 1) ' ') ++ "|"
  "TOML parse error at line " ++ number ++ ", column " ++ toString (column + 1) ++ "\n" ++
    gutter ++ "\n" ++
    number ++ " | " ++ String.ofList content ++ "\n" ++
    gutter ++ String.ofList (List.replicate (column + 1) ' ' ++ List.replicate marks '^') ++ "\n"

/-- The message about a fault in `source`. -/
def message (f : Fault) (source : String) : String :=
  let shown := match f.place with
    | some (start, stop) => excerpt source start stop
    | none => ""
  shown ++ f.reason ++ "\n"

end Fault

end MiniProgram.Toml
