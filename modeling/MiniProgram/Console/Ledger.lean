/-
The ledger on the console: warnings first, then fatal defects, so that the worst comes last. Within
a section the keys are in order, and each record is a notice of its own.
-/
import MiniProgram.Console.Notice

namespace MiniProgram.Console

open Text

/-- Text without the white space at its end. -/
def trimEnd (cs : List Char) : List Char := (cs.reverse.dropWhile isWhite).reverse

/-- The lines of a text. A carriage return before a line feed belongs to the end of the line. -/
def linesOf (cs : List Char) : List (List Char) :=
  match splitOn '\n' cs with
  | [] => []
  | pieces => pieces.dropLast.map dropReturn ++ pieces.getLast?.toList
where
  dropReturn (line : List Char) : List Char :=
    if line.getLast? = some '\r' then line.dropLast else line

/-- A notice set in by four blanks, without blanks at its end. -/
def setIn (text : String) : String :=
  String.join ((linesOf (trimEnd text.toList)).map fun line =>
    if line.all isWhite then "\n" else "    " ++ String.ofList line ++ "\n")

/-- The sources of files, as far as they can be read. -/
abbrev Sources := String → Option Source

/-- The files in which records have labels. -/
def labelledFiles (drained : Drained) : List String :=
  let records := (drained.warning ++ drained.fatal).flatMap Prod.snd
  (records.filter (!·.labels.isEmpty)).filterMap (·.file)

/-- The sources that are loaded for a ledger. A file in which no record has a label is not read. -/
def Sources.load (sources : Sources) (drained : Drained) : Sources := fun file =>
  if file ∈ labelledFiles drained then sources file else none

/-- The source that a record is shown with: what was loaded for its file, for this record or another
one. -/
def recordSource (sources : Sources) (r : Record) : Option Source :=
  r.file.bind sources

/-- A section of the ledger; nothing if there are no records in it. -/
def sectionText (title : String) (source : Record → Option Source)
    (groups : List (String × List Record)) : String :=
  if groups.isEmpty then ""
  else
    title ++ " (" ++ toString (groups.flatMap Prod.snd).length ++ "):\n" ++
      String.join (groups.map fun (key, records) =>
        "  " ++ key ++ "\n" ++
          String.join (records.map fun r => setIn (r.notice (source r)).text)) ++ "\n"

/-- The text of a ledger of a project with so many components. -/
def ledgerText (drained : Drained) (componentCount : Nat) (sources : Sources) : String :=
  if drained.fatal.isEmpty && drained.warning.isEmpty then
    "No problems found in " ++ toString componentCount ++ " components\n"
  else
    let source := recordSource (sources.load drained)
    sectionText "warnings" source drained.warning ++
      sectionText "fatal errors" source drained.fatal

end MiniProgram.Console
