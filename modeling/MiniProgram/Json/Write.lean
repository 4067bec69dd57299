/-
Writing JSON, one item to a line, with two blanks more for each level. Fields are written in the
order they are given.
-/
import MiniProgram.Text.Quoted

namespace MiniProgram.Json

open Text

/-- A JSON document. -/
inductive Tree where
  | null
  | bool (b : Bool)
  | number (n : Nat)
  | text (s : String)
  | list (items : List Tree)
  | object (fields : List (String × Tree))

namespace Tree

/-- A text, or null. -/
def ofText? : Option String → Tree
  | some s => text s
  | none => null

/-- A number, or null. -/
def ofNumber? : Option Nat → Tree
  | some n => number n
  | none => null

end Tree

/-- A hexadecimal digit of a byte below 32. -/
def controlDigits (n : Nat) : List Char :=
  '0' :: '0' :: (if n < 16 then '0' :: hexDigits n else hexDigits n)

/-- One character of a string: quotes, backslashes and controls are escaped. -/
def escapeChar (c : Char) : List Char :=
  match c with
  | '"' => ['\\', '"']
  | '\\' => ['\\', '\\']
  | '\x08' => ['\\', 'b']
  | '\x0c' => ['\\', 'f']
  | '\n' => ['\\', 'n']
  | '\r' => ['\\', 'r']
  | '\t' => ['\\', 't']
  | c => if c.toNat < 0x20 then '\\' :: 'u' :: controlDigits c.toNat else [c]

/-- A string with its quotes. -/
def writeText (s : String) : String :=
  String.ofList ('"' :: s.toList.flatMap escapeChar ++ ['"'])

/-- The blanks at the start of a line. -/
def indentation (level : Nat) : String := String.ofList (List.replicate (2 * level) ' ')

/-- Items between brackets, each on its own line; brackets without items stay together. -/
def bracketed (opening closing : String) (level : Nat) (items : List String) : String :=
  if items.isEmpty then opening ++ closing
  else opening ++ "\n" ++
    ",\n".intercalate (items.map fun item => indentation (level + 1) ++ item) ++
    "\n" ++ indentation level ++ closing

mutual
/-- Write a document that starts at a level. -/
def write (level : Nat) : Tree → String
  | .null => "null"
  | .bool b => if b then "true" else "false"
  | .number n => toString n
  | .text s => writeText s
  | .list items => bracketed "[" "]" level (writeItems (level + 1) items)
  | .object fields => bracketed "\x7b" "\x7d" level (writeFields (level + 1) fields)
/-- Write items. -/
def writeItems (level : Nat) : List Tree → List String
  | [] => []
  | item :: items => write level item :: writeItems level items
/-- Write fields. -/
def writeFields (level : Nat) : List (String × Tree) → List String
  | [] => []
  | (name, value) :: fields =>
    (writeText name ++ ": " ++ write level value) :: writeFields level fields
end

/-- The text of a document. -/
def Tree.render (t : Tree) : String := write 0 t

end MiniProgram.Json
