/-
Windows: the part of a source text that is shown around a span, with some lines before and after
it. Here a carriage return ends a line even without a line feed.
-/
import MiniProgram.Text.Bytes
import MiniProgram.Text.Span

namespace MiniProgram.Console

open Text

/-- The part of a source text around a span. -/
structure Window where
  start : Nat
  stop : Nat
  /-- How many lines come before the window, or before the span if no context was asked for. -/
  line : Nat
  /-- How many bytes come before the span on its line. -/
  column : Nat
  /-- How many lines were passed up to the end of the window. -/
  linesPassed : Nat
deriving DecidableEq, Repr

namespace Window

/-- What is known at a place in the text. -/
structure Scan where
  offset : Nat := 0
  linesPassed : Nat := 0
  /-- The lines before the window. -/
  line : Nat := 0
  column : Nat := 0
  /-- Where the lines before the span start that may be shown. -/
  lineStarts : List Nat := []
  /-- Where the present line starts. -/
  lineStart : Nat := 0
  /-- Whole lines after the line of the span. -/
  linesAfter : Nat := 0
  /-- Whether the end of the span has been passed, and the end of its line. -/
  pastSpan : Bool := false
  pastLine : Bool := false
  /-- Whether the window is complete. -/
  done : Bool := false

/-- The last byte of the span, or where it would be. -/
def lastByte (span : Span) : Nat := span.stop - 1

namespace Scan

/-- The end of a line before the span: the line may be shown, and an earlier one no longer. -/
def lineBefore (st : Scan) (context : Nat) : Scan :=
  let starts := st.lineStarts ++ [st.lineStart]
  { st with
    column := 0
    line := if context < starts.length then st.line + 1 else st.line
    lineStarts := if context < starts.length then starts.tail else starts }

/-- The end of a line after the span. -/
def lineAfter (st : Scan) (context : Nat) : Scan :=
  if st.pastSpan then
    let linesAfter := if st.pastLine then st.linesAfter + 1 else st.linesAfter
    { st with column := 0, linesAfter, pastLine := true, done := context ≤ linesAfter }
  else st

/-- The end of a line, of which `st.offset` is the last byte. -/
def endLine (st : Scan) (span : Span) (context : Nat) : Scan :=
  let st := { st with linesPassed := st.linesPassed + 1 }
  if st.offset < span.start then st.lineBefore context
  else if span.start + (span.length - 1) ≤ st.offset then st.lineAfter context
  else st

/-- Go past the byte at `st.offset`. -/
def advance (st : Scan) (span : Span) (context : Nat) : Scan :=
  let st :=
    if lastByte span ≤ st.offset then
      { st with pastSpan := true, done := st.done || context ≤ st.linesAfter }
    else st
  { st with offset := st.offset + 1 }

/-- Read on until the window is complete or the text ends. -/
def run (span : Span) (context : Nat) (st : Scan) : List UInt8 → Scan
  | [] => st
  | b :: bytes =>
    if st.done then st
    else if b = 13 ∨ b = 10 then
      -- a carriage return and a line feed end the line together
      match b, bytes with
      | 13, 10 :: rest => finishLine { st with offset := st.offset + 1 } rest
      | _, rest => finishLine st rest
    else
      let st := if st.offset < span.start then { st with column := st.column + 1 } else st
      run span context (st.advance span context) bytes
where
  finishLine (st : Scan) (rest : List UInt8) : Scan :=
    let st := st.endLine span context
    if st.done then { st with offset := st.offset + 1 }
    else run span context ({ st with lineStart := st.offset + 1 }.advance span context) rest

end Scan

/-- The window around a span with so many lines of context; none if the span ends past the text. -/
def around? (source : String) (span : Span) (context : Nat) : Option Window :=
  let st := Scan.run span context {} source.toUTF8.toList
  if lastByte span ≤ st.offset then
    let start := st.lineStarts.head?.getD (if context = 0 then span.start else 0)
    some ⟨start, st.offset, st.line, if context = 0 then st.column else 0, st.linesPassed⟩
  else none

end Window

end MiniProgram.Console
