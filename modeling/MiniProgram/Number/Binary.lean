/-
Binary floating point in exact arithmetic. A number is a mantissa times a power of two, and a
format rounds an exact quotient to the nearest number it holds, a tie going to the even mantissa.
Formats have no greatest exponent here: who must refuse large numbers compares with a bound.
-/

namespace MiniProgram.Number

/-- The powers of two. -/
def pow2 (n : Nat) : Nat := Nat.pow 2 n

/-- The powers of ten. -/
def pow10 (n : Nat) : Nat := Nat.pow 10 n

/-- The number `mantissa * 2 ^ exponent`. -/
structure Binary where
  mantissa : Nat
  exponent : Int
deriving DecidableEq, Repr

namespace Binary

def zero : Binary := ⟨0, 0⟩

/-- The numerator of the number as a quotient of naturals. -/
def num (x : Binary) : Nat := x.mantissa * pow2 x.exponent.toNat

/-- The denominator of the number as a quotient of naturals. -/
def den (x : Binary) : Nat := pow2 (-x.exponent).toNat

/-- Compare by value. -/
def le (x y : Binary) : Bool := x.num * y.den ≤ y.num * x.den

end Binary

/-- A binary format: mantissas below `2 ^ precision`, exponents from `minExponent` on. -/
structure Format where
  precision : Nat
  minExponent : Int

/-- The format of 32 bits. -/
def single : Format := ⟨24, -149⟩

/-- The format of 64 bits. -/
def double : Format := ⟨53, -1074⟩

/-- The integer nearest to `num / den`, the even one of two. -/
def roundHalfEven (num den : Nat) : Nat :=
  let q := num / den
  let r := num % den
  if 2 * r < den || (2 * r == den && q % 2 == 0) then q else q + 1

/-- The greatest `e` with `2 ^ e ≤ num / den`, for a positive quotient. -/
def floorLog2 (num den : Nat) : Int :=
  let e : Int := (Nat.log2 num : Int) - Nat.log2 den
  if den * pow2 e.toNat ≤ num * pow2 (-e).toNat then e else e - 1

namespace Format

/-- The bound past which a number of the format is infinite: its greatest exponent is as far above
nothing as that of its least number with a full mantissa is below. -/
def bound (f : Format) : Binary := ⟨1, 3 - f.minExponent - f.precision⟩

/-- The number of the format nearest to `num / den`. All that rounds to zero is one zero. -/
def round (f : Format) (num den : Nat) : Binary :=
  if num = 0 then .zero
  else
    let e := max f.minExponent (floorLog2 num den - f.precision + 1)
    let m := roundHalfEven (num * pow2 (-e).toNat) (den * pow2 e.toNat)
    if m = 0 then .zero
    else if m = pow2 f.precision then ⟨pow2 (f.precision - 1), e + 1⟩ else ⟨m, e⟩

def mul (f : Format) (x y : Binary) : Binary := f.round (x.num * y.num) (x.den * y.den)

def div (f : Format) (x y : Binary) : Binary := f.round (x.num * y.den) (x.den * y.num)

/-- A number of another format in this one. -/
def convert (f : Format) (x : Binary) : Binary := f.round x.num x.den

/-- Decimal places beyond which a number of any format here is zero or past every bound. -/
def decimalReach : Int := 400

/-- The number of the format nearest to `digits * 10 ^ exponent`. A magnitude outside the decimal
reach is taken as zero or as a number past every bound, without computing the power. -/
def ofDecimal (f : Format) (digits : Nat) (exponent : Int) : Binary :=
  let magnitude : Int := (Nat.toDigits 10 digits).length + exponent
  if digits = 0 ∨ magnitude < -decimalReach then .zero
  else if magnitude > decimalReach then ⟨1, 2 * decimalReach * 2⟩
  else f.round (digits * pow10 exponent.toNat) (pow10 (-exponent).toNat)

end Format

end MiniProgram.Number
