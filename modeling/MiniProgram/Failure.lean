/-
What stops a run. Defects of the project go to the ledger; a failure means that there is no ledger
to show.
-/
import MiniProgram.Config
import MiniProgram.Json.Fault
import MiniProgram.Path.File
import MiniProgram.Toml.Fault

namespace MiniProgram

/-- Why a file or directory could not be used. -/
inductive IoReason where
  | notFound
  | notDirectory
  | isDirectory
  | nameTooLong
  | denied
  /-- The bytes are no text. -/
  | notText
  /-- The path holds a character that no file name can. -/
  | badName
  /-- A directory could not be walked, because of this place in it. -/
  | walk (path : FilePath) (reason : IoReason)
deriving DecidableEq

def IoReason.message : IoReason → String
  | notFound => "No such file or directory (os error 2)"
  | notDirectory => "Not a directory (os error 20)"
  | isDirectory => "Is a directory (os error 21)"
  | nameTooLong => "File name too long (os error 36)"
  | denied => "permission denied"
  | notText => "stream did not contain valid UTF-8"
  | badName => "file name contained an unexpected NUL byte"
  | walk path reason => "IO error for operation on " ++ path.text ++ ": " ++ reason.message

/-- What is wrong with a project as a whole. -/
inductive ProjectFault where
  | noManifest (path : FilePath)
  | noPages (path : FilePath)
  | badPage (page : String)
deriving DecidableEq

def ProjectFault.message : ProjectFault → String
  | noManifest path => "project manifest `" ++ path.text ++ "` not found"
  | noPages path => "`" ++ path.text ++ "` has no `pages` list"
  | badPage page => "invalid page path `" ++ page ++ "`"

/-- What is wrong with how a run is set up. -/
inductive ConfigFault where
  | palette (fault : PaletteFault)
  | missing (path : FilePath)
  | unreadable (path : FilePath) (source : String) (fault : Toml.Fault)
  | badHighlight (path : String)

def ConfigFault.message : ConfigFault → String
  | palette fault => fault.message
  | missing path => "Missing configuration file: " ++ path.text
  | unreadable path source fault =>
    "Failed to parse TOML configuration `" ++ path.text ++ "`: " ++ fault.message source
  | badHighlight path => "invalid highlight path `" ++ path ++ "`"

/-- Why a run stopped. -/
inductive Failure where
  | io (path : FilePath) (reason : IoReason)
  /-- A manifest, with the text it was read from. -/
  | manifest (path : FilePath) (source : String) (fault : Json.Fault)
  | project (fault : ProjectFault)
  | config (fault : ConfigFault)

namespace Failure

/-- The text of the failure beneath this one, if there is one. -/
def cause? : Failure → Option String
  | io _ reason => some reason.message
  | manifest _ source fault => some (fault.message source)
  | _ => none

def message : Failure → String
  | io path reason => "I/O error on `" ++ path.text ++ "`: " ++ reason.message
  | manifest path source fault =>
    "Invalid manifest `" ++ path.text ++ "`: " ++ fault.message source
  | project fault => "Invalid project: " ++ fault.message
  | config fault => "Configuration error: " ++ fault.message

/-- What to try. -/
def help? : Failure → Option String
  | project _ => some "pass the directory that holds the project manifest"
  | config _ => some "check the configuration file or pass --config"
  | _ => none

/-- The area a failure belongs to. -/
def area : Failure → String
  | io .. => "io"
  | manifest .. => "manifest"
  | project _ => "project"
  | config _ => "config"

end Failure

end MiniProgram
