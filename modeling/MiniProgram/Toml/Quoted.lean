/-
Texts in quotes. A basic string has escapes and a literal string has none; either may be written
over several lines between three quotes.
-/
import MiniProgram.Text.Hex
import MiniProgram.Toml.Syntax

namespace MiniProgram.Toml

open Text

/-- A way to quote a text. -/
structure Quoting where
  name : String
  quotes : List Char
  escapes : Bool
  /-- Whether the text may have several lines. -/
  long : Bool

/-- The way a token is quoted. -/
def Quoting.ofKind? : TokenKind → Option Quoting
  | .literalText => some ⟨"literal string", ['\''], false, false⟩
  | .basicText => some ⟨"basic string", ['"'], true, false⟩
  | .longLiteralText => some ⟨"multi-line literal string", ['\'', '\'', '\''], false, true⟩
  | .longBasicText => some ⟨"multi-line basic string", ['"', '"', '"'], true, true⟩
  | _ => none

/-! ## Escapes -/

/-- The character with a number, if there is one. -/
def scalarValue? (n : Nat) : Option Char := if n.isValidChar then some (Char.ofNat n) else none

/-- A character given by hexadecimal digits, which start at byte `offset`. -/
def readCode (count offset : Nat) (chars : List Char) : Except Fault Char :=
  let digits := (chars.take count).filterMap hexValue?
  let expected := ", expected unicode hexadecimal value"
  let given := ((chars.take count).takeWhile isHexDigit).length
  if given < count then
    .error (.point (offset + given) ("too few unicode value digits" ++ expected))
  else match scalarValue? (digits.foldl (fun n d => n * 16 + d) 0) with
    | some c => .ok c
    | none => .error (.point offset ("invalid value" ++ expected))

/-- The character of an escape after its backslash, and how many characters stand for it. The
escape starts at byte `offset`. -/
def readEscape (offset : Nat) (chars : List Char) : Except Fault (Char × Nat) :=
  let code (count : Nat) (rest : List Char) : Except Fault (Char × Nat) :=
    (readCode count (offset + 1) rest).map fun c => (c, count + 1)
  match chars with
  | 'b' :: _ => .ok ('\x08', 1)
  | 'e' :: _ => .ok ('\x1b', 1)
  | 'f' :: _ => .ok ('\x0c', 1)
  | 'n' :: _ => .ok ('\n', 1)
  | 'r' :: _ => .ok ('\r', 1)
  | 't' :: _ => .ok ('\t', 1)
  | '\\' :: _ => .ok ('\\', 1)
  | '"' :: _ => .ok ('"', 1)
  | 'x' :: rest => code 2 rest
  | 'u' :: rest => code 4 rest
  | 'U' :: rest => code 8 rest
  | _ => .error (.point offset
      "missing escaped value, expected `b`, `e`, `f`, `n`, `r`, `\\`, `\"`, `x`, `u`, `U`")

/-! ## Texts -/

/-- The fault of a carriage return that is not followed by a line feed. -/
def loneReturn (offset : Nat) : Fault :=
  .point (offset + 1) "carriage return must be followed by newline, expected newline"

/-- How many blanks and line ends come next, from byte `offset` on. -/
def skipLines (offset : Nat) : List Char → Except Fault Nat
  | '\r' :: '\n' :: cs => (skipLines (offset + 2) cs).map (· + 2)
  | '\r' :: _ => .error (loneReturn offset)
  | c :: cs =>
    if c = ' ' ∨ c = '\t' ∨ c = '\n' then (skipLines (offset + 1) cs).map (· + 1) else .ok 0
  | [] => .ok 0

/-- How many characters a backslash at the end of a line takes away: blanks and line ends, of which
there must be one after blanks only. -/
def skipLineEnd (name : String) (offset : Nat) (chars : List Char) : Except Fault Nat :=
  let blanks := (chars.takeWhile fun c => c == ' ' || c == '\t').length
  match chars.drop blanks with
  | '\n' :: _ | '\r' :: _ => skipLines offset chars
  | _ => .error (.point (offset + blanks) ("invalid " ++ name ++ ", expected newline"))

/-- The fault of a character that may not stand in a text. -/
def Quoting.badChar (q : Quoting) (offset : Nat) (chars : List Char) : Fault :=
  let fault (run : List Char) (expected : String) : Fault :=
    .within offset (offset + byteLength run) ("invalid " ++ q.name ++ ", expected " ++ expected)
  match q.escapes, q.long with
  | true, true =>
    fault (chars.takeWhile fun c => !isTextChar c && c != '\n' && c != '\r') "`\\`, characters"
  | true, false =>
    fault (chars.takeWhile (!isTextChar ·)) "non-double-quote visible characters, `\\`"
  | false, true => fault [] "non-single-quote characters"
  | false, false => fault [] "non-single-quote visible characters"

/-- Decode what stands between the quotes, from byte `offset` on. -/
def Quoting.decodeFrom (q : Quoting) (offset : Nat) (chars : List Char) :
    Except Fault (List Char) :=
  match chars with
  | [] => .ok []
  | c :: rest =>
    if q.escapes && c == '\\' then
      let blank (c : Char) := c == ' ' || c == '\t' || c == '\r' || c == '\n'
      if q.long && rest.head?.any blank then
        match skipLineEnd q.name (offset + 1) rest with
        | .error f => .error f
        | .ok n => q.decodeFrom (offset + 1 + n) (rest.drop n)
      else
        match readEscape (offset + 1) rest with
        | .error f => .error f
        | .ok (c, n) => (q.decodeFrom (offset + 1 + n) (rest.drop n)).map (c :: ·)
    else if q.long && c == '\r' && rest.head? != some '\n' then .error (loneReturn offset)
    else if isTextChar c || (q.long && (c == '\n' || c == '\r')) then
      (q.decodeFrom (offset + c.utf8Size) rest).map (c :: ·)
    else .error (q.badChar offset (c :: rest))
termination_by chars.length
decreasing_by all_goals simp only [List.length_drop, List.length_cons]; omega

/-- Decode a text with its quotes, which starts at byte `offset`. A line end right after three
opening quotes is left out. -/
def Quoting.decode (q : Quoting) (offset : Nat) (chars : List Char) : Except Fault (List Char) :=
  let opened := chars.drop q.quotes.length
  let (skipped, body) := match q.long, opened with
    | true, '\n' :: rest => (1, rest)
    | true, '\r' :: '\n' :: rest => (2, rest)
    | _, rest => (0, rest)
  if q.quotes.isSuffixOf body then
    q.decodeFrom (offset + q.quotes.length + skipped) (body.take (body.length - q.quotes.length))
  else
    .error (.point (offset + byteLength chars)
      ("invalid " ++ q.name ++ ", expected `" ++ String.ofList (q.quotes.take 1) ++ "`"))

end MiniProgram.Toml
