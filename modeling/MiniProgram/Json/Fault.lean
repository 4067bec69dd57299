/-
What can be wrong with a JSON text. A fault is placed by the number of bytes between it and the end
of the text, which a reader knows without counting from the start.
-/
import MiniProgram.Text.Position

namespace MiniProgram.Json

open Text

/-- Why a JSON text is refused. -/
inductive Cause where
  | eofList | eofObject | eofText | eofValue
  | expectedColon | expectedListEnd | expectedObjectEnd
  | expectedName | expectedValue
  | invalidEscape | invalidNumber | numberRange
  | controlCharacter | keyNotText
  | loneSurrogate | unfinishedSurrogate
  | trailingComma | trailingText
  /-- The text is well formed but does not hold what is expected. -/
  | unfit (message : String)
deriving DecidableEq, Repr

def Cause.message : Cause → String
  | eofList => "EOF while parsing a list"
  | eofObject => "EOF while parsing an object"
  | eofText => "EOF while parsing a string"
  | eofValue => "EOF while parsing a value"
  | expectedColon => "expected `:`"
  | expectedListEnd => "expected `,` or `]`"
  | expectedObjectEnd => "expected `,` or `\x7d`"
  | expectedName => "expected ident"
  | expectedValue => "expected value"
  | invalidEscape => "invalid escape"
  | invalidNumber => "invalid number"
  | numberRange => "number out of range"
  | controlCharacter => "control character (\\u0000-\\u001F) found while parsing a string"
  | keyNotText => "key must be a string"
  | loneSurrogate => "lone leading surrogate in hex escape"
  | unfinishedSurrogate => "unexpected end of hex escape"
  | trailingComma => "trailing comma"
  | trailingText => "trailing characters"
  | unfit message => message

/-- A cause, and how many bytes of the text lie after the place it is reported at. -/
structure Fault where
  cause : Cause
  left : Nat
deriving DecidableEq, Repr

namespace Fault

/-- A fault reported in front of `rest`. -/
def before (rest : List Char) (cause : Cause) : Fault := ⟨cause, byteLength rest⟩

/-- A fault reported past the first byte of `rest`, if it has one. -/
def past (rest : List Char) (cause : Cause) : Fault := ⟨cause, byteLength rest - 1⟩

/-- The message about a fault in `source`. -/
def message (f : Fault) (source : String) : String :=
  let p := lineColumn source (byteLength source.toList - f.left)
  f.cause.message ++ " at line " ++ toString p.line ++ " column " ++ toString p.column

end Fault

/-- The text after something that was read from `s`. -/
abbrev Rest (s : List Char) := { r : List Char // r.length < s.length }

/-- Something read from the start of `s` and the text after it, or a fault. -/
abbrev Read (s : List Char) (α : Type) := Except Fault (α × Rest s)

/-- Text that is shorter than a part of `s` is shorter than `s`. -/
def Rest.within {s t : List Char} (h : t.length ≤ s.length) (r : Rest t) : Rest s :=
  ⟨r.val, Nat.lt_of_lt_of_le r.property h⟩

/-- The same reading, seen from a longer text. -/
def Read.within {s t : List Char} {α : Type} (h : t.length ≤ s.length) (r : Read t α) : Read s α :=
  r.map fun (a, rest) => (a, rest.within h)

/-- The text after the first character. -/
def Rest.afterFirst (c : Char) (s : List Char) : Rest (c :: s) := ⟨s, Nat.lt_succ_self _⟩

/-- The text after something that may be empty. -/
abbrev Tail (s : List Char) := { r : List Char // r.length ≤ s.length }

/-- The whole text, after nothing. -/
def Tail.all (s : List Char) : Tail s := ⟨s, Nat.le_refl _⟩

/-- The text after the first character. -/
def Tail.afterFirst (c : Char) (s : List Char) : Tail (c :: s) := ⟨s, Nat.le_succ _⟩

/-- The text after something that comes after the first character. -/
def Tail.behind {s : List Char} (c : Char) (r : Tail s) : Tail (c :: s) :=
  ⟨r.val, Nat.le_succ_of_le r.property⟩

/-- The same text, after something that is not known to be there. -/
def Rest.tail {s : List Char} (r : Rest s) : Tail s := ⟨r.val, Nat.le_of_lt r.property⟩

/-- Something made of what was read after the first character. -/
def Read.inside {t : List Char} {α β : Type} (c : Char) (f : α → β) (r : Read t α) :
    Read (c :: t) β :=
  r.map fun (a, rest) => (f a, rest.within (Nat.le_succ _))

end MiniProgram.Json
