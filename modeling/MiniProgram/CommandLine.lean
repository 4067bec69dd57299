/-
The arguments of a run: the project root, and options with a value each.
-/
import MiniProgram.Run

namespace MiniProgram

/-- Why the arguments do not make a request. -/
inductive ArgumentFault where
  | noRoot
  | secondRoot (argument : String)
  | noValue (option : String)
  | unknown (option : String)
deriving DecidableEq, Repr

def ArgumentFault.message : ArgumentFault → String
  | noRoot => "the path of the project root is missing"
  | secondRoot argument => "unexpected argument `" ++ argument ++ "`"
  | noValue option => "option `" ++ option ++ "` needs a value"
  | unknown option => "unknown option `" ++ option ++ "`"

/-- An option that takes a value. -/
inductive ValueOption where
  | highlight
  | config
  | report
deriving DecidableEq, Repr

def ValueOption.ofString? : String → Option ValueOption
  | "--highlight" => some .highlight
  | "--config" | "-c" => some .config
  | "--report" | "-r" => some .report
  | _ => none

/-- A request with the value of an option taken in. -/
def ValueOption.apply (o : ValueOption) (value : String) (r : Request) : Request :=
  match o with
  | highlight => { r with highlights := r.highlights ++ [value] }
  | config => { r with config := some (.ofString value) }
  | report => { r with report := some (.ofString value) }

/-- Take in arguments; `rooted` tells whether the root has been given. -/
def takeArguments (rooted : Bool) (r : Request) : List String → Except ArgumentFault Request
  | [] => if rooted then .ok r else .error .noRoot
  | a :: rest =>
    match ValueOption.ofString? a, rest with
    | some o, value :: rest => takeArguments rooted (o.apply value r) rest
    | some _, [] => .error (.noValue a)
    | none, rest =>
      if a.toList.head? = some '-' then .error (.unknown a)
      else if rooted then .error (.secondRoot a)
      else takeArguments true { r with root := .ofString a } rest

/-- The request that arguments make. -/
def Request.ofArguments (args : List String) : Except ArgumentFault Request :=
  takeArguments false { root := .ofString "" } args

end MiniProgram
