/-
Notices: what the console shows about one defect or failure. A notice has a code, a message, the
causes beneath it, a snippet of source where there is one, and advice.
-/
import MiniProgram.Console.Snippet
import MiniProgram.Failure
import MiniProgram.Ledger
import MiniProgram.Text.Fill

namespace MiniProgram

open Text

namespace Console

/-- The columns that a notice may take. -/
def width : Nat := 198

/-- What is shown about one matter. -/
structure Notice where
  code : String
  severity : Severity
  message : String
  /-- The failures beneath this one, the nearest first. -/
  causes : List String
  source : Option Source
  /-- The labels in the source. Without a source there is nothing to label. -/
  labels : List Label
  help : Option String

namespace Notice

/-- The sign before a message. -/
def sign : Severity → String
  | .fatal => "x"
  | .warning => "!"

/-- The lines of the causes; the last one is drawn with a corner. -/
def causeLines : List String → List String
  | [] => []
  | [cause] => Frame.fill ⟨width, "  `-> ", "      "⟩ cause
  | cause :: causes => Frame.fill ⟨width, "  |-> ", "  |   "⟩ cause ++ causeLines causes

/-- The lines of a notice. -/
def lines (n : Notice) : List String :=
  n.code :: "" :: Frame.fill ⟨width, "  " ++ sign n.severity ++ " ", "  | "⟩ n.message ++
    causeLines n.causes ++
    (match n.source with
      | some source => drawSnippets source n.labels
      | none => []) ++
    (match n.help with
      | some help => Frame.fill ⟨width, "  help: ", "        "⟩ help
      | none => [])

/-- The text of a notice. -/
def text (n : Notice) : String := String.join (n.lines.map (· ++ "\n"))

end Notice

end Console

open Console

/-- Whether a record is shown with a snippet. -/
def Record.hasSnippet (r : Record) (source : Option Source) : Bool :=
  source.isSome && !r.labels.isEmpty

/-- The message of a record, with its place where no snippet shows it. -/
def Record.display (r : Record) (source : Option Source) : String :=
  if r.hasSnippet source then r.message
  else match r.file, r.position with
    | some file, some position => r.message ++ " (" ++ file ++ ":" ++ position.render ++ ")"
    | some file, none => r.message ++ " (" ++ file ++ ")"
    | none, _ => r.message

/-- The labels of a record that lie within the source; none where there is nothing to show. -/
def Record.shownLabels? (r : Record) (source : Option Source) : Option (List Label) :=
  match source with
  | none => none
  | some source =>
    if r.labels.isEmpty then none
    else some (r.labels.filter fun l => l.span.stop ≤ byteLength source.text.toList)

/-- The code of a record as the console shows it. -/
def Record.code (r : Record) : String := "mpcheck::" ++ r.kind.render

/-- The notice of a record. -/
def Record.notice (r : Record) (source : Option Source) : Notice where
  code := r.code
  severity := r.severity
  message := r.display source
  causes := []
  source := source
  labels := (r.shownLabels? source).getD []
  help := r.help

/-- The reasons beneath a reason. -/
def IoReason.deeper : IoReason → List String
  | .walk _ reason => reason.message :: reason.deeper
  | _ => []

/-- The texts of the failures beneath this one, the nearest first. -/
def Failure.causes : Failure → List String
  | io _ reason => reason.message :: reason.deeper
  | f => f.cause?.toList

/-- The code of a failure as the console shows it. -/
def Failure.code (f : Failure) : String := "mpcheck::" ++ f.area

/-- The notice of a failure. -/
def Failure.notice (f : Failure) : Notice where
  code := f.code
  severity := .fatal
  message := f.message
  causes := f.causes
  source := none
  labels := []
  help := f.help?

end MiniProgram
