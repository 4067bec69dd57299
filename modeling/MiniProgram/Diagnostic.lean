/-
Diagnostics: the kinds of defect the checker knows, how severe each is, and a message with labelled
spans and advice.
-/
import MiniProgram.Text.Span

namespace MiniProgram

open Text

/-- How bad a defect is. -/
inductive Severity where
  /-- A broken reference or a missing file. -/
  | fatal
  /-- A flaw that does not break resolution. -/
  | warning
deriving DecidableEq, Repr

namespace Severity

def render : Severity → String
  | fatal => "fatal"
  | warning => "warning"

end Severity

/-- The kinds of defect: `e1xx` concern markup, `e2xx` interpolation, `e3xx` components. -/
inductive Code where
  | e100 | e101 | e102 | e103 | e104 | e105 | e106
  | e200
  | e300 | e301 | e302 | e303 | e304
deriving DecidableEq, Repr

namespace Code

/-- Every kind, in order of number. -/
def all : List Code :=
  [e100, e101, e102, e103, e104, e105, e106, e200, e300, e301, e302, e303, e304]

/-- The number shown to the user. -/
def render : Code → String
  | e100 => "E100"
  | e101 => "E101"
  | e102 => "E102"
  | e103 => "E103"
  | e104 => "E104"
  | e105 => "E105"
  | e106 => "E106"
  | e200 => "E200"
  | e300 => "E300"
  | e301 => "E301"
  | e302 => "E302"
  | e303 => "E303"
  | e304 => "E304"

/-- The kind with this number. -/
def ofString? (s : String) : Option Code := all.find? (·.render == s)

/-- What the kind stands for. -/
def description : Code → String
  | e100 => "unterminated comment"
  | e101 => "unterminated attribute value"
  | e102 => "unexpected character in tag"
  | e103 => "unterminated tag"
  | e104 => "unexpected closing tag"
  | e105 => "unclosed element"
  | e106 => "invalid tag name"
  | e200 => "unmatched brackets"
  | e300 => "missing file"
  | e301 => "unresolved alias"
  | e302 => "undefined component"
  | e303 => "unused definition"
  | e304 => "orphan component"

/-- Missing files, unresolved aliases and undefined components are fatal. -/
def severity : Code → Severity
  | e300 | e301 | e302 => .fatal
  | _ => .warning

end Code

/-- A span with a remark. The primary label marks where a defect is reported. -/
structure Label where
  span : Span
  message : String
  primary : Bool
deriving DecidableEq, Repr

/-- A defect found in one source text. -/
structure Diagnostic where
  severity : Severity
  code : Option Code
  message : String
  labels : List Label
  help : Option String
deriving DecidableEq, Repr

namespace Diagnostic

/-- A warning with nothing but a message. -/
def warning (message : String) : Diagnostic :=
  ⟨.warning, none, message, [], none⟩

/-- A defect of the given kind, as severe as the kind is. -/
def ofCode (code : Code) (message : String) : Diagnostic :=
  ⟨code.severity, some code, message, [], none⟩

def withCode (d : Diagnostic) (code : Code) : Diagnostic := { d with code := some code }

/-- Add a primary label. -/
def withLabel (d : Diagnostic) (span : Span) (message : String) : Diagnostic :=
  { d with labels := d.labels ++ [⟨span, message, true⟩] }

/-- Add a label that gives context. -/
def withContext (d : Diagnostic) (span : Span) (message : String) : Diagnostic :=
  { d with labels := d.labels ++ [⟨span, message, false⟩] }

def withHelp (d : Diagnostic) (help : String) : Diagnostic := { d with help := some help }

/-- A defect is reported at the start of its first primary label. -/
def offset (d : Diagnostic) : Option Nat :=
  (d.labels.find? (·.primary)).map (·.span.start)

/-- Written `fatal[E302]: text`, or `warning: text` where there is no code. -/
def render (d : Diagnostic) : String :=
  let code := match d.code with
    | some c => "[" ++ c.render ++ "]"
    | none => ""
  d.severity.render ++ code ++ ": " ++ d.message

end Diagnostic

end MiniProgram
