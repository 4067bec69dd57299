/-
Snippets: lines of a source text with marks under them that point out labelled spans. A span within
one line is underlined; a span over several lines is drawn in a gutter at the left of the text.
-/
import MiniProgram.Console.Window
import MiniProgram.Diagnostic
import MiniProgram.Text.Columns
import MiniProgram.Text.Split

namespace MiniProgram.Console

open Text

/-- A source text and what it is called. -/
structure Source where
  name : String
  text : String

/-- How many lines are shown before and after a span. -/
def contextLines : Nat := 1

/-- Tabs go to the next multiple of this column. -/
def tabWidth : Nat := 4

def repeated (n : Nat) (c : Char) : String := String.ofList (List.replicate n c)

def spaces (n : Nat) : String := repeated n ' '

/-! ## Lines -/

/-- A line of source as it is shown. -/
structure Line where
  number : Nat
  start : Nat
  /-- The bytes of the line with its end. -/
  size : Nat
  text : List Char
deriving DecidableEq, Repr

namespace Line

def stop (l : Line) : Nat := l.start + l.size

end Line

/-- The lines of a window's text, where `number` counts the lines before, and `offset` is the place
reached; `text` holds the characters of the present line, the last one first. Only a line feed ends
a line; a carriage return before it belongs to the end. -/
def cutLines (number start offset : Nat) (text : List Char) : List Char → List Line
  | [] => []
  | '\r' :: '\n' :: cs => ⟨number + 1, start, offset + 2 - start, text.reverse⟩ ::
    cutLines (number + 1) (offset + 2) (offset + 2) [] cs
  | '\n' :: cs => ⟨number + 1, start, offset + 1 - start, text.reverse⟩ ::
    cutLines (number + 1) (offset + 1) (offset + 1) [] cs
  | [c] =>
    -- the text ends without an end of line; a carriage return there does not begin a new line
    let number := if c = '\r' then number else number + 1
    [⟨number, start, offset + c.utf8Size - start, (c :: text).reverse⟩]
  | c :: cs => cutLines number start (offset + c.utf8Size) (c :: text) cs

/-- The text of a window. -/
def Window.text (w : Window) (source : String) : List Char :=
  (cutAt (w.stop - w.start) (cutAt w.start source.toList).2).1

/-- The lines of a window. -/
def Window.lines (w : Window) (source : String) : List Line :=
  cutLines w.line w.start w.start [] (w.text source)

/-! ## Spans and lines -/

/-- A span to be pointed out, and the lines of its remark. -/
structure Mark where
  span : Span
  remark : List String
deriving DecidableEq

namespace Mark

def ofLabel (l : Label) : Mark :=
  ⟨l.span, (splitOn '\n' l.message.toList).map String.ofList⟩

/-- The bytes a mark takes up; an empty span takes up one. -/
def size (m : Mark) : Nat := max m.span.length 1

end Mark

namespace Line

/-- Whether the mark lies within the line. -/
def holds (l : Line) (m : Mark) : Bool := l.start ≤ m.span.start && m.span.stop ≤ l.stop

/-- Whether the mark starts in the line. -/
def hasStart (l : Line) (m : Mark) : Bool := l.start ≤ m.span.start && m.span.start < l.stop

/-- Whether the mark ends in the line, an empty one counting as one byte. -/
def hasEnd (l : Line) (m : Mark) : Bool :=
  l.start < m.span.start + m.size && m.span.start + m.size ≤ l.stop

/-- Whether the mark shows in the line. -/
def shows (l : Line) (m : Mark) : Bool :=
  l.hasStart m || (m.span.start < l.start && l.stop < m.span.start + m.size) || l.hasEnd m

/-- Whether the mark shows in the gutter of the line. -/
def showsInGutter (l : Line) (m : Mark) : Bool := l.shows m && !(l.hasStart m && l.hasEnd m)

/-- Whether the mark covers the whole line and more on both sides. -/
def isPassedBy (l : Line) (m : Mark) : Bool := m.span.start < l.start && l.stop < m.span.stop

/-- Whether a mark that shows in the line starts there. -/
def opens (l : Line) (m : Mark) : Bool := l.start ≤ m.span.start

/-- Whether a mark that shows in the line ends there. -/
def closes (l : Line) (m : Mark) : Bool := l.start ≤ m.span.stop && m.span.stop ≤ l.stop

end Line

/-! ## Columns -/

/-- The widths of characters that start at a column. Tabs reach to the next stop, and a colour
sequence, from an escape to the next `m`, has no width. -/
def widths (column : Nat) (escaped : Bool) : List Char → List (Char × Nat)
  | [] => []
  | c :: cs =>
    if escaped then (c, 0) :: widths column (c != 'm') cs
    else if c = '\t' then
      let w := tabWidth - column % tabWidth
      (c, w) :: widths (column + w) false cs
    else if c = '\x1b' then (c, 0) :: widths column true cs
    else
      let w := Edition.older.columns c
      (c, w) :: widths (column + w) false cs

/-- The text of a line with tabs written as blanks. -/
def expanded (text : List Char) : String :=
  String.ofList ((widths 0 false text).flatMap fun (c, w) =>
    if c = '\t' then List.replicate w ' ' else [c])

/-- The width of a text. -/
def widthOf (text : List Char) : Nat := (widths 0 false text).foldl (fun n w => n + w.2) 0

/-- The characters that end at or before a byte of the text, or that start before it. -/
def upTo (byte : Nat) (whole : Bool) (text : List Char) : List Char :=
  let before := (cutAt byte text).1
  if whole && byteLength before < byte then text.take (before.length + 1) else before

/-- The column of a byte of a line. Inside a character it is the column of its start, or of its end
where `whole` says so; past the text it is one column after it. -/
def Line.column (l : Line) (byte : Nat) (whole : Bool) : Nat :=
  let byte := byte - l.start
  if byteLength l.text < byte then widthOf l.text + 1 else widthOf (upTo byte whole l.text)

/-! ## The gutter -/

/-- How a line of a remark is drawn. -/
inductive Remark where
  /-- The only line. -/
  | single
  /-- The first of several lines. -/
  | first
  /-- A later line. -/
  | later
deriving DecidableEq

/-- The gutter beside a line of source. -/
def lineGutter (width : Nat) (l : Line) (marks : List Mark) : String :=
  if width = 0 then ""
  else
    let (drawn, arrow) := draw 0 (marks.filter l.showsInGutter)
    drawn ++ spaces ((if arrow then 1 else 3) + (width - drawn.length))
where
  draw (i : Nat) : List Mark → String × Bool
    | [] => ("", false)
    | m :: ms =>
      if l.opens m then ("," ++ repeated (width - i) '-' ++ ">", true)
      else if l.closes m then ("|" ++ repeated (width - i) '-' ++ ">", true)
      else
        let (drawn, arrow) := draw (i + 1) ms
        ((if l.isPassedBy m then "|" else " ") ++ drawn, arrow)

/-- The gutter beside a line of marks. -/
def markGutter (width : Nat) (l : Line) (marks : List Mark) (remark : Remark) : String :=
  if width = 0 then ""
  else
    let (drawn, taken) := draw 0 (marks.filter l.showsInGutter)
    drawn ++ spaces (width + 3 - taken)
where
  draw (i : Nat) : List Mark → String × Nat
    | [] => ("", 0)
    | m :: ms =>
      if !l.holds m && l.closes m then
        let reach := width - i + 2
        match remark with
        | .single => ("`" ++ repeated reach '-', reach + 1)
        | .first => ("`" ++ repeated (reach - 1) '-', reach + 1)
        | .later => (spaces reach, reach + 1)
      else
        let (drawn, taken) := draw (i + 1) ms
        ("|" ++ drawn, taken + 1)

/-! ## Marks -/

/-- The start of a line of marks, where line numbers have so many digits. -/
def noNumber (digits : Nat) : String := " " ++ spaces digits ++ " : "

/-- The start of a line of source. -/
def withNumber (digits : Nat) (n : Nat) : String :=
  let s := toString n
  " " ++ spaces (digits - s.length) ++ s ++ " | "

/-- The columns of a mark under a line: its start, its stem and its end. -/
structure Underline where
  mark : Mark
  start : Nat
  stem : Nat
  stop : Nat

/-- The underlines of marks, each starting after the end of the one before. -/
def underlines (l : Line) (reached : Nat) : List Mark → List Underline
  | [] => []
  | m :: ms =>
    let start := max (l.column m.span.start false) reached
    let stop := if m.span.isEmpty then start + 1 else max (l.column m.span.stop true) (start + 1)
    ⟨m, start, (start + stop) / 2, stop⟩ :: underlines l (max reached stop) ms

/-- The underlines drawn on one line. -/
def drawUnderlines (reached : Nat) : List Underline → String
  | [] => ""
  | u :: us =>
    spaces (u.start - reached) ++ repeated (u.stem - u.start) '^' ++
      (if u.mark.span.isEmpty then "^" else "|") ++ repeated (u.stop - u.stem - 1) '^' ++
      drawUnderlines (max reached u.stop) us

/-- A line of the remark of `m`: stems of the marks before it, then the remark. -/
def drawRemark (m : Mark) (part : String) (kind : Remark) (column : Nat) : List Underline → String
  | [] => ""
  | u :: us =>
    let lead := spaces (u.stem - column)
    let column := max column u.stem
    if u.mark = m then
      lead ++ (match kind with
        | .single => "`-- "
        | .first => "`-| "
        | .later => "  | ") ++ part
    else lead ++ "|" ++ drawRemark m part kind (column + 1) us

/-- The lines of a remark with how each is drawn. -/
def remarkLines (m : Mark) : List (String × Remark) :=
  match m.remark with
  | [] => []
  | [part] => [(part, .single)]
  | part :: parts => (part, .first) :: parts.map fun p => (p, .later)

/-- The lines under a line of source for the marks within it. -/
def singleMarks (digits width : Nat) (l : Line) (within marks : List Mark) : List String :=
  if within.isEmpty then []
  else
    let us := underlines l 0 within
    let lead := noNumber digits ++ markGutter width l marks .single
    (lead ++ drawUnderlines 0 us) ::
      within.reverse.flatMap fun m =>
        (remarkLines m).map fun (part, kind) => lead ++ drawRemark m part kind 0 us

/-- The lines under a line of source for a mark that ends there and started before. -/
def closingMark (digits width : Nat) (l : Line) (marks : List Mark) (m : Mark) : List String :=
  (remarkLines m).map fun (part, kind) =>
    noNumber digits ++ markGutter width l marks kind ++
      (match kind with
        | .single => "- "
        | .first => "| "
        | .later => "| ") ++ part

/-- A line of source and the lines under it. -/
def drawLine (digits width : Nat) (marks : List Mark) (l : Line) : List String :=
  let shown := marks.filter l.shows
  let across := (shown.filter fun m => !l.holds m).filter fun m => l.closes m && !l.opens m
  (withNumber digits l.number ++ lineGutter width l marks ++ expanded l.text) ::
    singleMarks digits width l (shown.filter l.holds) marks ++
    across.flatMap (closingMark digits width l marks)

/-! ## Snippets -/

/-- How many marks at most are drawn beside one line. -/
def gutterWidth (lines : List Line) (marks : List Mark) : Nat :=
  (lines.map fun l => marks.countP fun m => !l.holds m && l.showsInGutter m).foldl max 0

/-- The label whose place the heading of a snippet gives: the first primary one within the span of
the snippet, else the first within it. -/
def headingLabel? (span : Span) (labels : List Label) : Option Label :=
  let within := labels.filter fun l => span.start ≤ l.span.start && l.span.stop ≤ span.stop
  (within.find? (·.primary)).or within.head?

/-- The lines of the snippet around a span. -/
def drawSnippet (source : Source) (span : Span) (labels : List Label) : List String :=
  match Window.around? source.text span contextLines with
  | none => []
  | some window =>
    let lines := window.lines source.text
    let marks := labels.map Mark.ofLabel
    let width := gutterWidth lines marks
    let digits := (toString ((lines.getLast?.map (·.number)).getD 0)).length
    let place := ((headingLabel? span labels).bind fun l =>
      Window.around? source.text l.span 0).getD window
    let heading := spaces (digits + 2) ++ ",-[" ++ source.name ++ ":" ++
      toString (place.line + 1) ++ ":" ++ toString (place.column + 1) ++ "]"
    heading :: lines.flatMap (drawLine digits width marks) ++ [spaces (digits + 2) ++ "`----"]

/-- Join the spans of labels whose windows meet; `spans` holds the spans so far, the last one
first, with their windows. -/
def joinSpans (source : Source) (spans : List (Span × Window)) : List Label → List Span
  | [] => (spans.map Prod.fst).reverse
  | l :: ls =>
    match Window.around? source.text l.span contextLines with
    | none => joinSpans source spans ls
    | some window =>
      match spans with
      | [] => joinSpans source [(l.span, window)] ls
      | (left, leftWindow) :: rest =>
        let joined := Span.ofBounds left.start (max left.stop l.span.stop)
        match if window.line ≤ leftWindow.line + leftWindow.linesPassed then
            Window.around? source.text joined contextLines else none with
        | some both => joinSpans source ((joined, both) :: rest) ls
        | none => joinSpans source ((l.span, window) :: (left, leftWindow) :: rest) ls

/-- The lines of all snippets that labels need, in order of place. -/
def drawSnippets (source : Source) (labels : List Label) : List String :=
  let labels := labels.mergeSort fun a b => a.span.start ≤ b.span.start
  (joinSpans source [] labels).flatMap fun span => drawSnippet source span labels

end MiniProgram.Console
