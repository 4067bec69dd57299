/-
Markup tokens. A token is what the lexer recognises, a lexeme is a token with the span it covers,
and a fault is a piece of input the lexer had to pass over, with the reason.
-/
import MiniProgram.Diagnostic

namespace MiniProgram.Markup

open Text

/-- Attributes stand only between an opening `<name` and the `>` or `/>` that ends the tag. -/
inductive Token where
  /-- `<name` -/
  | openTag (name : String)
  /-- `name` or `name=value` inside a tag -/
  | attr (name : Located String) (value : Option (Located String))
  /-- `>` -/
  | tagEnd
  /-- `/>` -/
  | selfClose
  /-- `</name>`; the name is empty for `</>` -/
  | closeTag (name : String)
  /-- Character data between tags -/
  | text (value : String)
  /-- `<!-- ... -->`, without the marks -/
  | comment (value : String)
deriving DecidableEq, Repr

/-- A token and the span it covers. -/
structure Lexeme where
  token : Token
  span : Span
deriving DecidableEq, Repr

/-- Why a piece of input became no token. Each reason carries the span that is reported. -/
inductive Fault where
  /-- `<!--` with no `-->` after it; the rest of the input is given up. -/
  | openComment (span : Span)
  /-- A quoted value that runs to the end of the input. -/
  | openValue (span : Span)
  /-- `=` with no value after it. -/
  | missingValue (span : Span)
  /-- A character that starts nothing inside a tag. -/
  | strayCharacter (span : Span)
  /-- A tag that the next tag or the end of the input cuts short. -/
  | openTag (span : Span)
  /-- `</name` with no `>` after it. -/
  | openClosingTag (span : Span)
deriving DecidableEq, Repr

namespace Fault

/-- The kind of defect. -/
def code : Fault → Code
  | openComment _ => .e100
  | openValue _ => .e101
  | missingValue _ | strayCharacter _ => .e102
  | openTag _ | openClosingTag _ => .e103

/-- The span that is reported. -/
def span : Fault → Span
  | openComment s | openValue s | missingValue s | strayCharacter s | openTag s
  | openClosingTag s => s

def message : Fault → String
  | openComment _ => "unterminated comment"
  | openValue _ => "unterminated attribute value"
  | missingValue _ => "expected attribute value"
  | strayCharacter _ => "unexpected character in tag"
  | openTag _ | openClosingTag _ => "unterminated tag"

/-- Advice on how to mend the input. -/
def help : Fault → Option String
  | openComment _ => some "close the comment with `-->`"
  | openValue _ => some "close the value with a matching quote"
  | missingValue _ => some "quote the value: `name=\"value\"`"
  | strayCharacter _ => none
  | openTag _ => some "close the tag with `>` or `/>`"
  | openClosingTag _ => some "close the tag with `>`"

/-- The warning reported for a fault. -/
def diagnostic (f : Fault) : Diagnostic where
  severity := .warning
  code := some f.code
  message := f.message
  labels := [⟨f.span, f.code.description, true⟩]
  help := f.help

end Fault

/-- What the lexer emits, in the order of the input. -/
inductive Event where
  | token (lexeme : Lexeme)
  | fault (fault : Fault)
deriving DecidableEq, Repr

namespace Event

def lexeme? : Event → Option Lexeme
  | token l => some l
  | fault _ => none

def fault? : Event → Option Fault
  | token _ => none
  | fault f => some f

end Event

end MiniProgram.Markup
