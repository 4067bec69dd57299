/-
The shortest decimal of a binary number: of the decimals that round to the number in its format,
one with the fewest digits, and of those the nearest. Writers choose which of two equally near ones
is taken, and where the point goes.
-/
import MiniProgram.Number.Binary

namespace MiniProgram.Number

/-- Which of two equally near decimals is taken. -/
inductive Tie where
  /-- The greater one. -/
  | up
  /-- The one with an even last digit. -/
  | toEven
deriving DecidableEq, Repr

/-- Whether the point after `low` is taken rather than `low`, if both are equally near. -/
def Tie.takesUpper (t : Tie) (low : Nat) : Bool :=
  match t with
  | up => true
  | toEven => low % 2 == 1

/-- The number `0.d₁d₂… * 10 ^ point` with the digits `d₁d₂…`. -/
structure Decimal where
  digits : List Char
  point : Int
deriving DecidableEq, Repr

/-- The reals that round to a number, as numerators over one denominator: the number itself, and
the ends of the interval, which belong to it if `closed`. -/
structure Rounding where
  lower : Nat
  value : Nat
  upper : Nat
  den : Nat
  closed : Bool

/-- The rounding interval of `x` in the format: half way to the neighbours on either side. Below a
power of two the lower neighbour is half as far. -/
def Format.rounding (f : Format) (x : Binary) : Rounding :=
  let narrow := x.mantissa = pow2 (f.precision - 1) ∧ f.minExponent < x.exponent
  let unit := pow2 x.exponent.toNat
  { lower := (4 * x.mantissa - if narrow then 1 else 2) * unit
    value := 4 * x.mantissa * unit
    upper := (4 * x.mantissa + 2) * unit
    den := 4 * x.den
    closed := x.mantissa % 2 == 0 }

namespace Rounding

/-- Whether the quotient `num / den` rounds to the number. -/
def contains (r : Rounding) (num den : Nat) : Bool :=
  let n := num * r.den
  if r.closed then r.lower * den ≤ n && n ≤ r.upper * den
  else r.lower * den < n && n < r.upper * den

/-- The point of the grid of step `10 ^ place` that rounds to the number, the nearer of two, as a
multiple of the step. -/
def onGrid? (r : Rounding) (tie : Tie) (place : Int) : Option Nat :=
  let up := pow10 place.toNat
  let down := pow10 (-place).toNat
  let low := r.value * down / (r.den * up)
  let hit (k : Nat) : Bool := r.contains (k * up) down
  match hit low, hit (low + 1) with
  | true, false => some low
  | false, true => some (low + 1)
  | false, false => none
  | true, true =>
    let twiceAbove := 2 * (r.value * down - low * (r.den * up))
    let step := r.den * up
    some (if step < twiceAbove ∨ (step = twiceAbove ∧ tie.takesUpper low) then low + 1 else low)

end Rounding

/-- The greatest `p` with `10 ^ p ≤ num / den`, looked for from a given `p` downwards through a
given number of steps. -/
def floorLog10 (num den : Nat) : Nat → Int → Int
  | 0, p => p
  | n + 1, p =>
    if den * pow10 p.toNat ≤ num * pow10 (-p).toNat then p else floorLog10 num den n (p - 1)

/-- The digits of `n` without the zeros at the end, and how many zeros there were. -/
def trimZeros (digits : List Char) : List Char × Nat :=
  let kept := (digits.reverse.dropWhile (· == '0')).reverse
  (kept, digits.length - kept.length)

/-- Look for a decimal of at most `count` digits, then of one more, through `more` further
counts. -/
def Rounding.search (r : Rounding) (tie : Tie) (leading : Int) : Nat → Nat → Option Decimal
  | 0, _ => none
  | more + 1, count =>
    let place := leading - count + 1
    match r.onGrid? tie place with
    | some k =>
      let digits := Nat.toDigits 10 k
      some ⟨(trimZeros digits).1, digits.length + place⟩
    | none => r.search tie leading more (count + 1)

/-- The most digits a decimal of a number of 64 bits needs. -/
def maxDigits : Nat := 17

/-- The shortest decimal of a number of the format; of zero the digit `0`. -/
def Format.shortest (f : Format) (tie : Tie) (x : Binary) : Decimal :=
  if x.mantissa = 0 then ⟨['0'], 1⟩
  else
    -- the leading decimal place, from an upper bound by the binary one: `30 < 100 * log 2 < 31`
    let binary := floorLog2 x.num x.den + 1
    let top := binary * (if binary < 0 then 30 else 31) / 100 + 1
    let leading := floorLog10 x.num x.den 40 top
    ((f.rounding x).search tie leading maxDigits 1).getD ⟨['0'], 1⟩

namespace Decimal

/-- Written out without an exponent, a whole number without a point. -/
def positional (d : Decimal) : String :=
  if d.digits = ['0'] then "0"
  else if d.point ≤ 0 then
    "0." ++ String.ofList (List.replicate (-d.point).toNat '0' ++ d.digits)
  else
    let before := d.point.toNat
    if d.digits.length ≤ before then
      String.ofList (d.digits ++ List.replicate (before - d.digits.length) '0')
    else String.ofList (d.digits.take before ++ '.' :: d.digits.drop before)

/-- Written out with a point in any case. -/
def pointed (d : Decimal) : String :=
  let s := d.positional
  if '.' ∈ s.toList then s else s ++ ".0"

/-- Written `d.ddde+19`: the exponent has a sign. -/
def scientific (d : Decimal) : String :=
  let exponent := d.point - 1
  let mantissa := match d.digits with
    | [] => "0"
    | [c] => String.ofList [c]
    | c :: cs => String.ofList (c :: '.' :: cs)
  let sign := if exponent < 0 then "-" else "+"
  mantissa ++ "e" ++ sign ++ toString exponent.natAbs

end Decimal

end MiniProgram.Number
