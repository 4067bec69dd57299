/-
Dates and times. A moment is a date, a time, or both with an offset; only its form is checked, for
nothing here needs its value.
-/

namespace MiniProgram.Toml

/-- The parts of a written moment. -/
inductive MomentPart where
  | digits (ds : List Char)
  | dash | colon | dot | plus
  /-- A `T`, or a blank in place of one. -/
  | between
  | zulu
  | other
deriving DecidableEq

namespace MomentPart

/-- The part that a character other than a digit is. -/
def ofChar (c : Char) : MomentPart :=
  match c with
  | '-' => .dash
  | ':' => .colon
  | '.' => .dot
  | '+' => .plus
  | 'T' | 't' | ' ' => .between
  | 'Z' | 'z' => .zulu
  | _ => .other

/-- The parts of a text, runs of digits joined. -/
def split : List Char → List MomentPart
  | [] => []
  | c :: cs =>
    if c.isDigit then
      match split cs with
      | .digits ds :: ps => .digits (c :: ds) :: ps
      | ps => .digits [c] :: ps
    else ofChar c :: split cs

end MomentPart

/-- The message about a moment: what is wrong, and what was expected. -/
def invalidMoment (what expected : String) : String :=
  "invalid " ++ what ++ ", expected " ++ expected

/-- Digits that come next. -/
def takeNumber (what expected : String) :
    List MomentPart → Except String (List Char × List MomentPart)
  | .digits ds :: ps => .ok (ds, ps)
  | _ => .error (invalidMoment what expected)

/-- A separator that comes next. -/
def takeMark (mark : MomentPart) (what expected : String) :
    List MomentPart → Except String (List MomentPart)
  | p :: ps => if p = mark then .ok ps else .error (invalidMoment what expected)
  | [] => .error (invalidMoment what expected)

/-- The value of decimal digits. -/
def decimalValue (ds : List Char) : Nat := ds.foldl (fun n d => n * 10 + (d.toNat - 48)) 0

/-- Digits of a given number. -/
def checkWidth (what expected : String) (width : Nat) (ds : List Char) : Except String Unit :=
  if ds.length = width then .ok () else .error (invalidMoment what expected)

/-- A value between bounds. -/
def checkRange (what expected : String) (low high : Nat) (ds : List Char) : Except String Unit :=
  if low ≤ decimalValue ds ∧ decimalValue ds ≤ high then .ok ()
  else .error (invalidMoment what expected)

/-- The number of days in a month. -/
def daysIn (year month : Nat) : Nat :=
  let leap := year % 4 == 0 && (year % 100 != 0 || year % 400 == 0)
  if month = 2 then (if leap then 29 else 28)
  else if month = 4 ∨ month = 6 ∨ month = 9 ∨ month = 11 then 30
  else 31

/-- The rest of a date after its year and the dash after that. -/
def checkDate (year : List Char) (ps : List MomentPart) : Except String (List MomentPart) := do
  let (month, ps) ← takeNumber "date" "month" ps
  let ps ← takeMark .dash "date" "`-` (MM-DD)" ps
  let (day, ps) ← takeNumber "date" "day" ps
  checkWidth "date" "a four-digit year (YYYY)" 4 year
  checkWidth "date" "a two-digit month (MM)" 2 month
  checkWidth "date" "a two-digit day (DD)" 2 day
  checkRange "date" "month between 01 and 12" 1 12 month
  let last := daysIn (decimalValue year) (decimalValue month)
  checkRange "date" ("day between 01 and " ++ toString last) 1 last day
  return ps

/-- Seconds with a fraction, which may be left out. -/
def takeSeconds : List MomentPart → Except String (List Char × List MomentPart)
  | .colon :: ps => do
    let (second, ps) ← takeNumber "time" "second" ps
    match ps with
    | .dot :: ps =>
      let (_, ps) ← takeNumber "time" "nanosecond" ps
      return (second, ps)
    | ps => return (second, ps)
  | ps => .ok (['0', '0'], ps)

/-- A time. -/
def checkTime (ps : List MomentPart) : Except String (List MomentPart) := do
  let (hour, ps) ← takeNumber "time" "hour" ps
  let ps ← takeMark .colon "time" "`:` (HH:MM)" ps
  let (minute, ps) ← takeNumber "time" "minute" ps
  let (second, ps) ← takeSeconds ps
  checkWidth "time" "a two-digit hour (HH)" 2 hour
  checkWidth "time" "a two-digit minute (MM)" 2 minute
  checkWidth "time" "a two-digit second (SS)" 2 second
  checkRange "time" "hour between 00 and 23" 0 23 hour
  checkRange "time" "minute between 00 and 59" 0 59 minute
  checkRange "time" "second between 00 and 60" 0 60 second
  return ps

/-- The offset of a time on a date, which may be left out. -/
def checkOffset : List MomentPart → Except String (List MomentPart)
  | [] => .ok []
  | .zulu :: ps => .ok ps
  | p :: ps =>
    if p = .plus ∨ p = .dash then do
      let (hour, ps) ← takeNumber "offset" "hour" ps
      let ps ← takeMark .colon "offset" "`:` (HH:MM)" ps
      let (minute, ps) ← takeNumber "offset" "minute" ps
      checkWidth "offset" "a two-digit hour (HH)" 2 hour
      checkWidth "offset" "a two-digit minute (MM)" 2 minute
      checkRange "offset" "hours between 00 and 23" 0 23 hour
      checkRange "offset" "minutes between 00 and 59" 0 59 minute
      return ps
    else .error (invalidMoment "offset" "`Z`, +OFFSET, -OFFSET")

/-- Check the form of a moment, or say what is wrong with it. -/
def checkMoment (chars : List Char) : Except String Unit := do
  let parts := MomentPart.split chars
  let (number, ps) ← takeNumber "datetime" "year or hour" parts
  let rest ← match ps with
    | .dash :: ps => do
      match ← checkDate number ps with
      | [] => pure []
      | .between :: ps => checkOffset (← checkTime ps)
      | _ => throw (invalidMoment "date-time" "`T` between date and time")
    | .colon :: _ => checkTime parts
    | _ => throw (invalidMoment "datetime" "`-` (YYYY-MM) or `:` (HH:MM)")
  if rest.isEmpty then return () else throw "invalid datetime"

end MiniProgram.Toml
