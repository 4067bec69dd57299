/-
A run from the command line: find the configuration, check the project, write the report, and show
the ledger. The files are those of a disk, which the report changes.
-/
import MiniProgram.Console.Ledger
import MiniProgram.FileSystem.Disk
import MiniProgram.Report

namespace MiniProgram

/-- What a run is asked for. -/
structure Request where
  /-- The directory of the project. -/
  root : FilePath
  /-- Paths whose place in the hierarchy is marked, as given. -/
  highlights : List String := []
  /-- The configuration file to use in place of any other. -/
  config : Option FilePath := none
  /-- Where to write the report. -/
  report : Option FilePath := none
  /-- The configuration file of the platform and its text, if there is one. -/
  platform : Option (FilePath × String) := none

/-- How a run ended, as far as the project is concerned. -/
inductive Outcome where
  | clean
  | warnings
  | fatal
deriving DecidableEq, Repr

/-- The exit status tells only of fatal defects. -/
def Outcome.exitCode : Outcome → Nat
  | clean | warnings => 0
  | fatal => 1

/-- The outcome that a ledger stands for. -/
def Ledger.outcome (l : Ledger) : Outcome :=
  if l.hasFatal then .fatal else if l.isClean then .clean else .warnings

/-- What a run leaves behind. -/
structure Finished where
  outcome : Outcome
  /-- The text for the console. -/
  output : String
  /-- The text of the report, if one was written. -/
  report : Option String
  disk : Disk

/-! ## Configuration -/

/-- The configuration in a text that was read from a file. -/
def readConfig (path : FilePath) (source : String) : Except Failure Config :=
  match Config.ofToml source with
  | .ok config => .ok config
  | .error fault => .error (.config (.unreadable path source fault))

/-- The configuration in a file. -/
def loadConfig (disk : Disk) (path : FilePath) : Except Failure Config :=
  if disk.exists? path then do readConfig path (← disk.readStrict path)
  else .error (.config (.missing path))

/-- The name of the configuration file of a project. -/
def configName : String := "mpcheck.toml"

namespace Request

/-- The configuration of a run: the file that is asked for, else that of the project, else that of
the platform, else the usual one. -/
def findConfig (r : Request) (disk : Disk) : Except Failure Config :=
  let project := r.root.join (.ofString configName)
  match r.config with
  | some path => loadConfig disk path
  | none =>
    if disk.isFile project then loadConfig disk project
    else match r.platform with
      | some (path, source) => readConfig path source
      | none => .ok {}

/-- The paths to highlight. -/
def highlightPaths (r : Request) : Except Failure (List LogicalPath) :=
  r.highlights.mapM fun highlight =>
    match LogicalPath.ofString? highlight with
    | some p => .ok p
    | none => .error (.config (.badHighlight highlight))

end Request

/-! ## Runs -/

/-- The sources of a project, for showing its records. -/
def Disk.sources (disk : Disk) (root : FilePath) : Console.Sources := fun file =>
  (disk.read (root.join (.ofString file))).toOption.map fun text => ⟨file, text⟩

/-- Write the report where it is asked for: its text, and the disk after that. -/
def Request.writeReport (r : Request) (disk : Disk) (report : Report)
    (highlights : List LogicalPath) : Except Failure (Option String × Disk) :=
  match r.report with
  | none => .ok (none, disk)
  | some path =>
    let text := (report.document highlights).render
    (disk.write path text).map fun disk => (some text, disk)

/-- Run a check as asked. -/
def Request.run (r : Request) (disk : Disk) : Except Failure Finished := do
  let config ← r.findConfig disk
  let highlights ← r.highlightPaths
  let report ← check config disk.fileSystem r.root
  let (written, disk) ← r.writeReport disk report highlights
  return { outcome := report.ledger.outcome
           output := Console.ledgerText report.ledger.drain.1 report.components.size
             (disk.sources r.root)
           report := written
           disk }

end MiniProgram
