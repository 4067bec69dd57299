/-
The ledger of a run: every defect that was found, in two buckets by severity. A bucket groups its
records by key, keys in order of first use and the records of a key in order of filing.
-/
import MiniProgram.Diagnostic
import MiniProgram.OrderedMap
import MiniProgram.Text.Excerpt

namespace MiniProgram

open Text

/-- One defect, with the place it was found at. -/
structure Record where
  kind : Code
  severity : Severity
  message : String
  /-- The file the defect is in, relative to the project root. -/
  file : Option String
  position : Option Position
  /-- The source line and a caret under the column. -/
  excerpt : Option String
  labels : List Label
  help : Option String
deriving DecidableEq, Repr

namespace Record

/-- A record of the severity of its kind, without a place. -/
def new (kind : Code) (message : String) : Record :=
  ⟨kind, kind.severity, message, none, none, none, [], none⟩

/-- Name the file, without a position in it. -/
def inFile (r : Record) (file : String) : Record := { r with file := some file }

/-- Place the record at byte `offset` of `source`, the text of `file`. -/
def locatedAt (r : Record) (file source : String) (offset : Nat) : Record :=
  { r with
    file := some file
    position := some (lineColumn source offset)
    excerpt := some (Text.excerpt source offset) }

/-- Add a primary label. -/
def withLabel (r : Record) (span : Span) (message : String) : Record :=
  { r with labels := r.labels ++ [⟨span, message, true⟩] }

def withHelp (r : Record) (help : String) : Record := { r with help := some help }

/-- The record of a diagnostic found in `file`, whose text is `source`. -/
def ofDiagnostic (d : Diagnostic) (file source : String) : Record :=
  let r : Record :=
    { new (d.code.getD .e102) d.message with
      severity := d.severity
      labels := d.labels
      help := d.help }
  match d.offset with
  | some offset => r.locatedAt file source offset
  | none => r.inFile file

end Record

/-- The records of one severity, by key. -/
abbrev Bucket := OrderedMap String (List Record)

namespace Bucket

/-- File a record under a key. -/
def file (b : Bucket) (key : String) (r : Record) : Bucket :=
  b.alter key fun old => old.getD [] ++ [r]

/-- The records under a key. -/
def recordsFor (b : Bucket) (key : String) : List Record := (b.find? key).getD []

/-- The number of records. -/
def count (b : Bucket) : Nat := b.values.flatten.length

/-- The groups in order of their keys. -/
def sorted (b : Bucket) : List (String × List Record) :=
  b.entries.mergeSort fun x y => (compare x.1 y.1).isLE

end Bucket

/-- The defects of a run. -/
structure Ledger where
  fatal : Bucket
  warning : Bucket
deriving DecidableEq

/-- The contents of a ledger with the keys of each bucket in order. -/
structure Drained where
  fatal : List (String × List Record)
  warning : List (String × List Record)
deriving DecidableEq

namespace Ledger

def empty : Ledger := ⟨.empty, .empty⟩

instance : Inhabited Ledger := ⟨empty⟩

/-- File a record under a key, in the bucket of its severity. -/
def record (l : Ledger) (key : String) (r : Record) : Ledger :=
  match r.severity with
  | .fatal => { l with fatal := l.fatal.file key r }
  | .warning => { l with warning := l.warning.file key r }

/-- File records under one key, in order. -/
def recordAll (l : Ledger) (key : String) (rs : List Record) : Ledger :=
  rs.foldl (fun l r => l.record key r) l

/-- Nothing was found. -/
def isClean (l : Ledger) : Bool := l.fatal.isEmpty && l.warning.isEmpty

def hasFatal (l : Ledger) : Bool := !l.fatal.isEmpty

/-- The records under a key, the fatal ones first. -/
def recordsFor (l : Ledger) (key : String) : List Record :=
  l.fatal.recordsFor key ++ l.warning.recordsFor key

def fatalCount (l : Ledger) : Nat := l.fatal.count

def warningCount (l : Ledger) : Nat := l.warning.count

/-- Take everything out, keys in order. -/
def drain (l : Ledger) : Drained × Ledger := (⟨l.fatal.sorted, l.warning.sorted⟩, empty)

end Ledger

end MiniProgram
