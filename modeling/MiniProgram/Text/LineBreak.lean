/-
Where a line may be broken. Whether a break may come between two characters depends on their
classes, on the class before blanks between them, and on a little of what came before. Marks that
combine take the class of what they combine with.
-/
import MiniProgram.Text.BreakClass
import MiniProgram.Text.Glyph

namespace MiniProgram.Text

namespace BreakClass

/-- Whether the line ends after the class. -/
def endsLine : BreakClass → Bool
  | mandatory | carriageReturn | lineFeed => true
  | _ => false

/-- Whether the class combines with the character before. -/
def isMark : BreakClass → Bool
  | combining | joiner => true
  | _ => false

def isLetter : BreakClass → Bool
  | alphabetic | hebrew => true
  | _ => false

def isPictograph : BreakClass → Bool
  | ideographic | emojiBase | emojiModifier => true
  | _ => false

def isHangul : BreakClass → Bool
  | leadingJamo | vowelJamo | trailingJamo | openSyllable | closedSyllable => true
  | _ => false

def isClosing : BreakClass → Bool
  | closing | closingParenthesis => true
  | _ => false

/-- Whether the class comes with a number, before it or after it. -/
def isUnit : BreakClass → Bool
  | prefixNumeric | postfixNumeric => true
  | _ => false

/-- Whether no break comes before the class, even after blanks. -/
def closesUp : BreakClass → Bool
  | closing | closingParenthesis | exclamation | infixSeparator | symbolAllowingBreak
  | wordJoiner => true
  | _ => false

/-- Whether two classes stay together even if blanks come between them. -/
def holdsAcrossSpace (before after : BreakClass) : Bool :=
  after.closesUp || before == opening || (before == quotation && after == opening) ||
    (before.isClosing && after == nonStarter) || (before == breakBoth && after == breakBoth)

/-- Whether jamo and syllables make up one syllable. -/
def holdsSyllable (before after : BreakClass) : Bool :=
  match before, after with
  | leadingJamo, leadingJamo | leadingJamo, vowelJamo | leadingJamo, openSyllable
  | leadingJamo, closedSyllable => true
  | vowelJamo, vowelJamo | vowelJamo, trailingJamo => true
  | openSyllable, vowelJamo | openSyllable, trailingJamo => true
  | trailingJamo, trailingJamo | closedSyllable, trailingJamo => true
  | _, _ => false

/-- Whether two classes stay together in a number or a word, or as a number and its unit. -/
def holdsWord (before after : BreakClass) : Bool :=
  match before, after with
  | numeric, numeric | hyphen, numeric | infixSeparator, numeric => true
  | symbolAllowingBreak, numeric | symbolAllowingBreak, hebrew => true
  | numeric, opening | closingParenthesis, numeric => true
  | emojiBase, emojiModifier => true
  | before, after =>
    (before.isLetter && (after.isLetter || after == numeric || after.isUnit || after == opening)) ||
      (after.isLetter && (before == numeric || before.isUnit || before == infixSeparator ||
        before == closingParenthesis)) ||
      (before.isUnit && (after == opening || after == numeric)) ||
      (after.isUnit && (before == numeric || before.isClosing)) ||
      (before == prefixNumeric && (after.isPictograph || after.isHangul)) ||
      (after == postfixNumeric && (before.isPictograph || before.isHangul))

/-- Whether a break may come between two classes that stand side by side. -/
def breaksBetween (before after : BreakClass) : Bool :=
  if before == wordJoiner || before == glue then false
  else if after == glue && before != breakAfter && before != hyphen then false
  else if holdsAcrossSpace before after || before == quotation || after == quotation then false
  else if before == contingent || after == contingent then true
  else !(after == breakAfter || after == hyphen || after == nonStarter || after == inseparable ||
    before == breakBefore || holdsWord before after || holdsSyllable before after)

end BreakClass

/-- What is known at a place between two characters. -/
structure BreakState where
  /-- The class of the last character that is no blank, with its marks. -/
  last : BreakClass
  /-- Whether blanks have come since. -/
  spaced : Bool
  /-- Whether an odd number of regional indicators comes just before. -/
  oddRegional : Bool
  /-- Whether the last class is a dash after a Hebrew letter. -/
  afterHebrew : Bool
  /-- Whether a joiner comes just before. -/
  joined : Bool

namespace BreakState

/-- The state after a character of a class that starts a line. Blanks and marks that have nothing
to stand on count as letters. -/
def start (cls : BreakClass) : BreakState :=
  match cls with
  | .space => ⟨.alphabetic, true, false, false, false⟩
  | .combining => ⟨.alphabetic, false, false, false, false⟩
  | .joiner => ⟨.alphabetic, false, false, false, true⟩
  | cls => ⟨cls, false, cls == .regional, false, false⟩

/-- Whether a break may come before a character of a class. -/
def mayBreak (st : BreakState) (cls : BreakClass) : Bool :=
  if st.last.endsLine then !(st.last == .carriageReturn && cls == .lineFeed)
  else if cls.endsLine || cls == .space || cls == .zeroWidthSpace then false
  else if st.last == .zeroWidthSpace then true
  else if st.joined then false
  else if st.spaced then !st.last.holdsAcrossSpace (if cls.isMark then .alphabetic else cls)
  else if cls.isMark then false
  else if st.afterHebrew then cls == .contingent
  else if st.last == .regional && cls == .regional then !st.oddRegional
  else st.last.breaksBetween cls

/-- The state after one more character. -/
def next (st : BreakState) (cls : BreakClass) : BreakState :=
  if st.last.endsLine then start cls
  else if cls == .space then ⟨st.last, true, false, false, false⟩
  else if cls.isMark && !st.spaced && st.last != .zeroWidthSpace then
    { st with joined := cls == .joiner }
  else
    { start cls with
      oddRegional := cls == .regional && !(st.last == .regional && st.oddRegional)
      afterHebrew := (cls == .hyphen || cls == .breakAfter) && st.last == .hebrew && !st.spaced }

end BreakState

/-- The pieces of a text between the places where it may be broken; `piece` holds the glyphs of the
piece so far, the last one first. -/
def breakPieces (st : BreakState) (piece : List Glyph) : List Glyph → List (List Glyph)
  | [] => [piece.reverse]
  | g :: gs =>
    let cls := BreakClass.ofChar g.char
    if st.mayBreak cls then piece.reverse :: breakPieces (st.next cls) [g] gs
    else breakPieces (st.next cls) (g :: piece) gs

/-- Whether a piece ends in a hyphen or a soft hyphen. -/
def endsInHyphen (piece : List Glyph) : Bool :=
  piece.getLast?.any fun g => g.char == '-' || g.char == '\xAD'

/-- Join each piece that ends in a hyphen to the next one. -/
def joinHyphens : List (List Glyph) → List (List Glyph)
  | [] => []
  | piece :: pieces =>
    match joinHyphens pieces with
    | [] => [piece]
    | next :: rest => if endsInHyphen piece then (piece ++ next) :: rest else piece :: next :: rest

def joinLastTwo : List (List Glyph) → List (List Glyph)
  | [piece, last] => [piece ++ last]
  | piece :: pieces => piece :: joinLastTwo pieces
  | [] => []

/-- Undo the breaks after hyphens: whether to break there is left to whoever splits words. A text
that ends in a hyphen loses the last of the other breaks. -/
def withoutHyphenBreaks (pieces : List (List Glyph)) : List (List Glyph) :=
  let joined := joinHyphens pieces
  if joined.getLast?.any endsInHyphen then joinLastTwo joined else joined

/-- Put characters behind the last of some pieces. -/
def appendToLast (pieces : List (List Char)) (cs : List Char) : List (List Char) :=
  match pieces.getLast? with
  | none => if cs.isEmpty then [] else [cs]
  | some last => pieces.dropLast ++ [last ++ cs]

/-- The pieces of a text between the places where it may be broken, hyphens apart. -/
def unbrokenPieces (cs : List Char) : List (List Char) :=
  let (shown, rest) := glyphs cs
  let pieces := match shown with
    | [] => []
    | g :: gs => withoutHyphenBreaks (breakPieces (.start (.ofChar g.char)) [g] gs)
  appendToLast (pieces.map (·.flatMap Glyph.chars)) rest

end MiniProgram.Text
