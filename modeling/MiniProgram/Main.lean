/-
The command line program. It takes the paths of the project's files on standard input, one on each
line, and checks the project that they make up.
-/
import MiniProgram.CommandLine

namespace MiniProgram

/-- The lines of standard input. -/
partial def inputLines (input : IO.FS.Stream) (sofar : Array String) : IO (List String) := do
  let line ← input.getLine
  if line.isEmpty then return sofar.toList
  inputLines input (sofar.push (String.ofList (line.toList.filter (· != '\n'))))

/-- The bytes of a file, if it can be read. -/
def bytesOf? (path : String) : IO (Option (List UInt8)) := do
  try return some (← IO.FS.readBinFile path).toList
  catch _ => return none

/-- A disk with the files that can be read. -/
def loadDisk (paths : List String) : IO Disk :=
  paths.foldlM (fun disk path => do
    match ← bytesOf? path with
    | some bytes => return disk.place (.ofString path) (.file bytes)
    | none => return disk) Disk.empty

/-- The configuration file of the platform. -/
def platformConfig : IO (Option (FilePath × String)) := do
  let base ← match ← IO.getEnv "XDG_CONFIG_HOME" with
    | some directory => pure (some directory)
    | none => pure ((← IO.getEnv "HOME").map (· ++ "/.config"))
  match base with
  | none => return none
  | some directory =>
    let path := directory ++ "/mpcheck/config.toml"
    return (← bytesOf? path).bind fun bytes =>
      (Text.decodeStrict? bytes).map fun text => (.ofString path, String.ofList text)

/-- Run the program on a request. -/
def execute (request : Request) : IO UInt32 := do
  let disk ← loadDisk (← inputLines (← IO.getStdin) #[])
  match { request with platform := ← platformConfig }.run disk with
  | .error failure =>
    IO.eprint failure.notice.text
    return 1
  | .ok finished =>
    match request.report, finished.report with
    | some path, some text => IO.FS.writeFile path.text text
    | _, _ => pure ()
    IO.print finished.output
    return UInt32.ofNat finished.outcome.exitCode

end MiniProgram

def main (args : List String) : IO UInt32 := do
  match MiniProgram.Request.ofArguments args with
  | .ok request => MiniProgram.execute request
  | .error fault =>
    IO.eprintln fault.message
    return 2
