/-
Text for a terminal as the characters that show, with the escape sequences between them. A control
sequence `ESC [ …` runs up to its final character, and a command `ESC ] …` up to a bell or the
terminator `ESC \`; any other escape takes one character. What does not end runs to the end of the
text.
-/

namespace MiniProgram.Text

/-- The character that starts an escape sequence. -/
def escape : Char := '\x1b'

/-- How many characters a control sequence has after its bracket. -/
def controlLength : List Char → Nat
  | [] => 0
  | c :: cs => if '@' ≤ c ∧ c ≤ '~' then 1 else controlLength cs + 1

/-- How many characters a command has after its bracket, where `before` is the one before. -/
def commandLength (before : Char) : List Char → Nat
  | [] => 0
  | c :: cs =>
    if c = '\x07' ∨ (c = '\\' ∧ before = escape) then 1 else commandLength c cs + 1

/-- How many characters an escape sequence has after its first one. -/
def escapeLength : List Char → Nat
  | [] => 0
  | '[' :: cs => controlLength cs + 1
  | ']' :: cs => commandLength ']' cs + 1
  | _ :: _ => 1

/-- A character that shows, and the escape sequences before it. -/
structure Glyph where
  hidden : List Char
  char : Char

def Glyph.chars (g : Glyph) : List Char := g.hidden ++ [g.char]

/-- The glyphs of a text after escape sequences, and the escape sequences at its end. -/
def glyphsAfter (hidden : List Char) (cs : List Char) : List Glyph × List Char :=
  match cs with
  | [] => ([], hidden)
  | c :: cs =>
    if c = escape then
      glyphsAfter (hidden ++ c :: cs.take (escapeLength cs)) (cs.drop (escapeLength cs))
    else
      let (glyphs, rest) := glyphsAfter [] cs
      (⟨hidden, c⟩ :: glyphs, rest)
termination_by cs.length
decreasing_by all_goals simp only [List.length_drop, List.length_cons]; omega

/-- The glyphs of a text, and the escape sequences at its end. -/
def glyphs (cs : List Char) : List Glyph × List Char := glyphsAfter [] cs

end MiniProgram.Text
