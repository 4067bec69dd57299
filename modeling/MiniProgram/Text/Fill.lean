/-
Filling lines: text is cut into words, and each line takes as many words as fit its width. Blanks
at the end of a line are dropped. A word that is too wide for a line is cut.
-/
import MiniProgram.Text.Columns
import MiniProgram.Text.Letter
import MiniProgram.Text.LineBreak
import MiniProgram.Text.Split

namespace MiniProgram.Text

/-- The columns of a character on a filled line. -/
def Glyph.width (g : Glyph) : Nat := Edition.newer.columns g.char

/-- The columns that characters take together; escape sequences take none. -/
def totalColumns (cs : List Char) : Nat :=
  (glyphs cs).1.foldl (fun used g => used + g.width) 0

/-- A word and the blanks after it. -/
structure Word where
  chars : List Char
  blanks : List Char

namespace Word

/-- Set the blanks at the end of a piece apart. -/
def ofPiece (piece : List Char) : Word :=
  let chars := (piece.reverse.dropWhile (· == ' ')).reverse
  ⟨chars, piece.drop chars.length⟩

def width (w : Word) : Nat := totalColumns w.chars

/-- Cut after each hyphen between two letters or digits; `before` is the character before, and
`part` holds the characters of the part so far, the last one first. -/
def splitHyphens (before : Option Char) (part : List Char) : List Char → List (List Char)
  | [] => [part.reverse]
  | c :: cs =>
    let cut := c == '-' && before.any isLetterOrDigit && cs.head?.any isLetterOrDigit
    if cut then (c :: part).reverse :: splitHyphens (some c) [] cs
    else splitHyphens (some c) (c :: part) cs

/-- Cut so that no part is wider than `limit`; `part` holds the characters of the part so far and
`used` their width. Escape sequences stay with what is before them. -/
def splitWide (limit used : Nat) (part : List Char) : List Glyph → List (List Char)
  | [] => [part]
  | g :: gs =>
    if 0 < used ∧ limit < used + g.width then
      (part ++ g.hidden) :: splitWide limit g.width [g.char] gs
    else splitWide limit (used + g.width) (part ++ g.chars) gs

/-- Give the blanks of a word to the last of its parts. -/
def withBlanks (blanks : List Char) : List (List Char) → List Word
  | [] => []
  | [part] => [⟨part, blanks⟩]
  | part :: parts => ⟨part, []⟩ :: withBlanks blanks parts

/-- The parts of a word at its hyphens. -/
def atHyphens (w : Word) : List Word := withBlanks w.blanks (splitHyphens none [] w.chars)

/-- The parts of a word that fit the limit. -/
def within (limit : Nat) (w : Word) : List Word :=
  if w.width ≤ limit then [w]
  else
    let (shown, rest) := glyphs w.chars
    withBlanks w.blanks (appendToLast (splitWide limit 0 [] shown) rest)

end Word

/-- The words of a line, none wider than `limit`. -/
def wordsOf (limit : Nat) (line : List Char) : List Word :=
  (((unbrokenPieces line).map Word.ofPiece).flatMap Word.atHyphens).flatMap (Word.within limit)

/-- Put words on lines. The first line has room for `first` columns, the others for `rest`; `line`
holds the words of the line so far and `used` their width with blanks. -/
def packWords (first rest : Nat) (line : List Word) (used : Nat) : List Word → List (List Word)
  | [] => [line]
  | w :: ws =>
    if first < used + w.width ∧ line ≠ [] then
      line :: packWords rest rest [w] (w.width + w.blanks.length) ws
    else packWords first rest (line ++ [w]) (used + w.width + w.blanks.length) ws

/-- The text of a line of words, without the blanks at its end. -/
def lineText (line : List Word) : List Char :=
  match line.getLast? with
  | none => []
  | some last => (line.dropLast.flatMap fun w => w.chars ++ w.blanks) ++ last.chars

/-- How text is laid out: the width of a line, and what the first and the later lines start with. -/
structure Frame where
  width : Nat
  initial : String
  subsequent : String

namespace Frame

/-- Fill the lines for one line of text. A word of no width stands before the others, so that even
the first of them may go to the next line. -/
def fillLine (f : Frame) (line : List Char) : List (List Char) :=
  let first := f.width - totalColumns f.initial.toList
  let rest := f.width - totalColumns f.subsequent.toList
  (packWords first rest [] 0 (⟨[], []⟩ :: wordsOf rest line)).map lineText

/-- Set the marks at the start of the lines. -/
def indent (f : Frame) : List (List Char) → List String
  | [] => []
  | line :: lines =>
    (f.initial ++ String.ofList line) :: lines.map fun l => f.subsequent ++ String.ofList l

/-- The lines of a text. -/
def fill (f : Frame) (text : String) : List String :=
  f.indent ((splitOn '\n' text.toList).flatMap f.fillLine)

end Frame

end MiniProgram.Text
