/-
Tokens of a TOML text. Every character belongs to a token; strings that are not closed are tokens
too, and are refused when they are decoded.
-/
import MiniProgram.Text.Bytes

namespace MiniProgram.Toml

open Text

/-- The kinds of tokens. -/
inductive TokenKind where
  | dot | equals | comma
  | openSquare | closeSquare | openCurly | closeCurly
  | blank | comment | newline
  | literalText | basicText | longLiteralText | longBasicText
  /-- A bare word or number. -/
  | atom
deriving DecidableEq, Repr

/-- A token with its characters and the byte it starts at. -/
structure Token where
  kind : TokenKind
  start : Nat
  chars : List Char
deriving Repr

def Token.stop (t : Token) : Nat := t.start + byteLength t.chars

namespace TokenKind

/-- Whether the token may be a key: a bare word or a text in quotes. -/
def isWord : TokenKind → Bool
  | atom | literalText | basicText | longLiteralText | longBasicText => true
  | _ => false

def isOpening : TokenKind → Bool
  | openSquare | openCurly => true
  | _ => false

/-- Whether the token says nothing. -/
def isTrivia : TokenKind → Bool
  | blank | comment | newline => true
  | _ => false

end TokenKind

/-- Whether a bare word ends before this character. -/
def endsAtom (c : Char) : Bool :=
  c == '.' || c == '=' || c == ',' || c == '[' || c == ']' || c == '\x7b' || c == '\x7d' ||
    c == ' ' || c == '\t' || c == '#' || c == '\r' || c == '\n'

/-- The length of a text on one line, from after its opening quote: up to the closing quote, or to
the end of the line. Where `escapes` says so, a backslash hides a quote or a backslash after it. -/
def textLength (quote : Char) (escapes : Bool) : List Char → Nat
  | [] => 0
  | [c] => if c = '\n' then 0 else 1
  | c :: c' :: cs =>
    if c = '\n' then 0
    else if c = quote then 1
    else if escapes && c == '\\' && (c' == quote || c' == '\\') then
      textLength quote escapes cs + 2
    else textLength quote escapes (c' :: cs) + 1

/-- The length of a text over several lines, from after its three opening quotes: up to three
closing quotes and at most two more. -/
def longTextLength (quote : Char) (escapes : Bool) : List Char → Nat
  | a :: b :: c :: cs =>
    if a = quote ∧ b = quote ∧ c = quote then 3 + ((cs.take 2).takeWhile (· == quote)).length
    else if escapes && a == '\\' && (b == quote || b == '\\') then
      longTextLength quote escapes (c :: cs) + 2
    else longTextLength quote escapes (b :: c :: cs) + 1
  | cs => cs.length

/-- The kind of the token at the start of a text, and how many characters it has after the first. -/
def measure (c : Char) (rest : List Char) : TokenKind × Nat :=
  match c with
  | '.' => (.dot, 0)
  | '=' => (.equals, 0)
  | ',' => (.comma, 0)
  | '[' => (.openSquare, 0)
  | ']' => (.closeSquare, 0)
  | '\x7b' => (.openCurly, 0)
  | '\x7d' => (.closeCurly, 0)
  | '\n' => (.newline, 0)
  | '\r' => (.newline, if rest.head? = some '\n' then 1 else 0)
  | '#' => (.comment, (rest.takeWhile fun c => c != '\r' && c != '\n').length)
  | '\'' =>
    match rest with
    | '\'' :: '\'' :: inner => (.longLiteralText, 2 + longTextLength '\'' false inner)
    | _ => (.literalText, textLength '\'' false rest)
  | '"' =>
    match rest with
    | '"' :: '"' :: inner => (.longBasicText, 2 + longTextLength '"' true inner)
    | _ => (.basicText, textLength '"' true rest)
  | c =>
    if c = ' ' ∨ c = '\t' then
      (.blank, (rest.takeWhile fun c => c == ' ' || c == '\t').length)
    else (.atom, (rest.takeWhile fun c => !endsAtom c).length)

/-- The tokens of a text that starts at a byte. -/
def tokensFrom (offset : Nat) (cs : List Char) : List Token :=
  match cs with
  | [] => []
  | c :: rest =>
    let (kind, n) := measure c rest
    let t : Token := ⟨kind, offset, c :: rest.take n⟩
    t :: tokensFrom t.stop (rest.drop n)
termination_by cs.length
decreasing_by simp only [List.length_drop, List.length_cons]; omega

/-- The tokens of a text, after a byte order mark if it has one. -/
def tokens (cs : List Char) : List Token :=
  match cs with
  | '\uFEFF' :: rest => tokensFrom 3 rest
  | cs => tokensFrom 0 cs

end MiniProgram.Toml
