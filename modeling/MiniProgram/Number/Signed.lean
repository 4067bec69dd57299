/-
Binary floating point with a sign. A result that rounds past the bound of its format is infinite,
and where arithmetic has no result there is none. Zero has a sign too, which is shown but does not
count.
-/
import MiniProgram.Number.Shortest

namespace MiniProgram.Number

/-- A number of a format with its sign. -/
inductive Signed where
  /-- What is left where arithmetic has no result. -/
  | undefined
  | infinite (negative : Bool)
  | finite (negative : Bool) (size : Binary)
deriving DecidableEq, Repr

namespace Signed

def zero : Signed := .finite false .zero

def negate : Signed → Signed
  | undefined => undefined
  | infinite negative => infinite !negative
  | finite negative x => finite (!negative) x

/-- The numerator over the denominator of the size. -/
def numerator (negative : Bool) (x : Binary) : Int := if negative then -(x.num : Int) else x.num

/-- Less by value. Nothing is less or greater than what is undefined. -/
def lt : Signed → Signed → Bool
  | undefined, _ | _, undefined => false
  | infinite m, infinite n => m && !n
  | infinite m, finite _ _ => m
  | finite _ _, infinite n => !n
  | finite m x, finite n y => numerator m x * y.den < numerator n y * x.den

/-- Equal by value. What is undefined equals nothing. -/
def agrees : Signed → Signed → Bool
  | undefined, _ | _, undefined => false
  | infinite m, infinite n => m == n
  | infinite _, finite _ _ | finite _ _, infinite _ => false
  | finite m x, finite n y => numerator m x * y.den == numerator n y * x.den

/-- The lesser one; what is undefined gives way. -/
def min : Signed → Signed → Signed
  | undefined, y => y
  | x, undefined => x
  | x, y => if y.lt x then y else x

/-- The nearest number between two bounds. -/
def clamp (x least most : Signed) : Signed :=
  if x.lt least then least else if most.lt x then most else x

end Signed

namespace Format

/-- A rounded size with its sign. -/
def settle (f : Format) (negative : Bool) (x : Binary) : Signed :=
  if f.bound.le x then .infinite negative else .finite negative x

/-- The number nearest to `num / den`. -/
def quotient (f : Format) (num den : Nat) : Signed := f.settle false (f.round num den)

def add (f : Format) : Signed → Signed → Signed
  | .undefined, _ | _, .undefined => .undefined
  | .infinite m, .infinite n => if m = n then .infinite m else .undefined
  | .infinite m, .finite _ _ => .infinite m
  | .finite _ _, .infinite n => .infinite n
  | .finite m x, .finite n y =>
    let a := x.num * y.den
    let b := y.num * x.den
    let den := x.den * y.den
    if m = n then f.settle m (f.round (a + b) den)
    else if b < a then f.settle m (f.round (a - b) den)
    else if a < b then f.settle n (f.round (b - a) den)
    else .zero

def sub (f : Format) (x y : Signed) : Signed := f.add x y.negate

def times (f : Format) : Signed → Signed → Signed
  | .undefined, _ | _, .undefined => .undefined
  | .infinite m, .infinite n => .infinite (m != n)
  | .infinite m, .finite n x | .finite n x, .infinite m =>
    if x.mantissa = 0 then .undefined else .infinite (m != n)
  | .finite m x, .finite n y => f.settle (m != n) (f.mul x y)

def ratio (f : Format) : Signed → Signed → Signed
  | .undefined, _ | _, .undefined => .undefined
  | .infinite _, .infinite _ => .undefined
  | .infinite m, .finite n _ => .infinite (m != n)
  | .finite m _, .infinite n => .finite (m != n) .zero
  | .finite m x, .finite n y =>
    if y.mantissa = 0 then if x.mantissa = 0 then .undefined else .infinite (m != n)
    else f.settle (m != n) (f.div x y)

/-- The greatest whole number up to a number. -/
def floor (f : Format) : Signed → Signed
  | .finite false x => .finite false (f.round (x.num / x.den) 1)
  | .finite true x => .finite true (f.round ((x.num + x.den - 1) / x.den) 1)
  | x => x

/-- Written out without an exponent, with the fewest digits that give the number back. -/
def render (f : Format) : Signed → String
  | .undefined => "NaN"
  | .infinite negative => if negative then "-inf" else "inf"
  | .finite negative x => (if negative then "-" else "") ++ (f.shortest .up x).positional

end Format

end MiniProgram.Number
