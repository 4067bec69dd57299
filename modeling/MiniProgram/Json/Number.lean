/-
Numbers of a JSON text. A number is first scanned as a numeral, its written parts; a message about
a number that stands in the wrong place then needs its value.
-/
import MiniProgram.Json.Fault
import MiniProgram.Data.Schema
import MiniProgram.Number.Shortest

namespace MiniProgram.Json

open Text Number Data

/-- The parts of a number as written, without a minus sign before it. -/
structure Numeral where
  whole : List Char
  fraction : List Char
  /-- Whether the exponent is negative, and its digits. -/
  exponent : Option (Bool × List Char)

theorem length_dropWhile_le {α : Type} (p : α → Bool) (s : List α) :
    (s.dropWhile p).length ≤ s.length :=
  (List.dropWhile_sublist p).length_le

/-- The digits at the start of `s`. -/
def takeDigits (s : List Char) : List Char × Tail s :=
  (s.takeWhile (·.isDigit), ⟨s.dropWhile (·.isDigit), length_dropWhile_le _ s⟩)

/-- Digits of which there must be at least one; `eof` is the cause where the text ends. -/
def someDigits (eof : Cause) (s : List Char) : Except Fault (List Char × Tail s) :=
  match s with
  | [] => .error (.before [] eof)
  | c :: rest =>
    if c.isDigit then .ok (takeDigits (c :: rest)) else .error (.past (c :: rest) .invalidNumber)

/-- The fraction, if a point comes next. -/
def scanFraction (eof : Cause) (s : List Char) : Except Fault (List Char × Tail s) :=
  match s with
  | '.' :: rest => do
    let (digits, rest') ← someDigits eof rest
    return (digits, rest'.behind '.')
  | s => .ok ([], .all s)

/-- The sign of an exponent. -/
def scanSign (s : List Char) : Bool × Tail s :=
  match s with
  | '+' :: rest => (false, .afterFirst '+' rest)
  | '-' :: rest => (true, .afterFirst '-' rest)
  | s => (false, .all s)

/-- The exponent, if its mark comes next. -/
def scanExponent (eof : Cause) (s : List Char) :
    Except Fault (Option (Bool × List Char) × Tail s) :=
  match s with
  | [] => .ok (none, .all [])
  | c :: rest =>
    if c = 'e' ∨ c = 'E' then do
      let (negative, ⟨rest₁, h₁⟩) := scanSign rest
      let (digits, ⟨rest₂, h₂⟩) ← someDigits eof rest₁
      return (some (negative, digits), ⟨rest₂, by simp only [List.length_cons]; omega⟩)
    else .ok (none, .all (c :: rest))

/-- The digits before the point: a zero stands alone. -/
def scanWhole (eof : Cause) (s : List Char) : Read s (List Char) :=
  match s with
  | [] => .error (.before [] eof)
  | '0' :: rest =>
    if (rest.head?.map (·.isDigit)).getD false then .error (.past rest .invalidNumber)
    else .ok (['0'], .afterFirst '0' rest)
  | c :: rest =>
    if c.isDigit then
      let (digits, ⟨rest', h⟩) := takeDigits rest
      .ok (c :: digits, ⟨rest', Nat.lt_succ_of_le h⟩)
    else .error (.past (c :: rest) .invalidNumber)

/-- Scan a number; `eof` is the cause where the text ends too early. -/
def scanNumeral (eof : Cause) (s : List Char) : Except Fault (Numeral × Rest s) := do
  let (whole, ⟨rest₁, h₁⟩) ← scanWhole eof s
  let (fraction, ⟨rest₂, h₂⟩) ← scanFraction eof rest₁
  let (exponent, ⟨rest₃, h₃⟩) ← scanExponent eof rest₂
  return (⟨whole, fraction, exponent⟩, ⟨rest₃, by omega⟩)

/-! ## Values -/

/-- Append digits to `n` while it stays below `limit`; what it became, and the digits left over. -/
def takeIn (limit n : Nat) : List Char → Nat × List Char
  | [] => (n, [])
  | d :: ds =>
    let n' := n * 10 + (d.toNat - 48)
    if n' < limit then takeIn limit n' ds else (n, d :: ds)

/-- Divide by `10 ^ places`, by at most the greatest power of 64 bits at a time. -/
def shiftDown (x : Binary) (places : Nat) : Binary :=
  if places ≤ 308 then double.div x (double.ofDecimal 1 places)
  else if x.mantissa = 0 then x
  else shiftDown (double.div x (double.ofDecimal 1 308)) (places - 308)
termination_by places
decreasing_by omega

/-- The number `digits * 10 ^ exponent` of 64 bits, if it is finite. The digits and the power are
rounded before they are multiplied. -/
def scale? (digits : Nat) (exponent : Int) : Option Binary :=
  let x := double.round digits 1
  if exponent < 0 then some (shiftDown x exponent.natAbs)
  else if x.mantissa = 0 then some x
  else if exponent > 308 then none
  else
    let y := double.mul x (double.ofDecimal 1 exponent)
    if double.bound.le y then none else some y

/-- How a floating-point number is written: positional from `0.00001` up to sixteen places, with an
exponent elsewhere. Of two equally near decimals the even one is taken. -/
def renderDouble (negative : Bool) (x : Binary) : String :=
  let d := double.shortest .toEven x
  (if negative then "-" else "") ++
    if -5 ≤ d.point - 1 ∧ d.point - 1 ≤ 15 then d.pointed else d.scientific

/-- The value of a numeral in front of `rest`: an integer if it is written as one and fits 64 bits,
else a floating-point number. -/
def Numeral.found (n : Numeral) (negative : Bool) (rest : List Char) : Except Fault Found :=
  let (whole, beyond) := takeIn (pow2 64) 0 n.whole
  if beyond.isEmpty && n.fraction.isEmpty && n.exponent.isNone then
    if !negative then .ok (.integer whole)
    else if 0 < whole ∧ whole ≤ pow2 63 then .ok (.integer (-whole))
    else .ok (.floating (renderDouble true (double.round whole 1)))
  else
    let (digits, unused) := takeIn (pow2 64) whole n.fraction
    let shift : Int := beyond.length - (n.fraction.length - unused.length : Nat)
    let finish (exponent : Int) : Except Fault Found :=
      match scale? digits exponent with
      | some x => .ok (.floating (renderDouble negative x))
      | none => .error (.before rest .numberRange)
    match n.exponent with
    | none => finish shift
    | some (down, places) =>
      match takeIn (pow2 31) 0 places with
      | (exponent, []) => finish (if down then shift - exponent else shift + exponent)
      | (_, _ :: unread) =>
        if digits = 0 ∨ down then .ok (.floating (renderDouble negative .zero))
        else .error ⟨.numberRange, byteLength rest + unread.length⟩

end MiniProgram.Json
