/-
Reading a colour: hexadecimal digits after `#`, a name, or a mixture such as `rgb(…)` or
`oklch(…)` of numbers, percentages and angles. Between the parts of a mixture stand blanks, with a
slash before the alpha channel; `rgb(…)` and `hsl(…)` may have commas between all parts instead. A
mixture `color(…)` starts with the name of its space.
-/
import MiniProgram.Color.Basic
import MiniProgram.Color.Names
import MiniProgram.Text.Blank
import MiniProgram.Text.Split

namespace MiniProgram

open Number Text

namespace Color

/-- Why a text is not a colour. -/
inductive Fault where
  | unknownIdentifier
  | unknownSyntax
  | unknownComponent
  | unknownAngle
  | unknownAngleUnit
  | unknownSpace
  | wrongDigitCount
  | expectedArguments
  | expectedClosing
  | expectedSpace
  | expectedComma
  | expectedEnd
deriving DecidableEq, Repr

def Fault.message : Fault → String
  | unknownIdentifier => "unknown color identifier"
  | unknownSyntax => "unknown color syntax"
  | unknownComponent => "unknown color component"
  | unknownAngle => "unknown angle"
  | unknownAngleUnit => "unknown angle dimension"
  | unknownSpace => "unknown color space"
  | wrongDigitCount => "wrong number of hex digits"
  | expectedArguments => "expected arguments"
  | expectedClosing => "expected closing parenthesis"
  | expectedSpace => "expected color space identifier"
  | expectedComma => "expected comma"
  | expectedEnd => "expected end of string"

/-! ## Hexadecimal digits -/

/-- The value of a hexadecimal digit. -/
def digit? (c : Char) : Option Nat :=
  if c.isDigit then some (c.toNat - '0'.toNat)
  else if 'a' ≤ c ∧ c ≤ 'f' then some (c.toNat - 'a'.toNat + 10)
  else if 'A' ≤ c ∧ c ≤ 'F' then some (c.toNat - 'A'.toNat + 10)
  else none

/-- The level `byte / 255`, computed in 32 bits. -/
def ofByte (byte : Nat) : Channel :=
  .level (single.times (single.quotient byte 1) (single.quotient 1 255))

/-- The bytes that digits stand for: two digits each, or one digit that counts twice. -/
def bytes? : List Nat → Option (List Nat)
  | [a, b, c] => some [a * 17, b * 17, c * 17]
  | [a, b, c, d] => some [a * 17, b * 17, c * 17, d * 17]
  | [a, b, c, d, e, f] => some [a * 16 + b, c * 16 + d, e * 16 + f]
  | [a, b, c, d, e, f, g, h] => some [a * 16 + b, c * 16 + d, e * 16 + f, g * 16 + h]
  | _ => none

/-- The digits at the start, at most `n`, and the rest. -/
def takeDigits : Nat → List Char → List Nat × List Char
  | 0, cs => ([], cs)
  | _ + 1, [] => ([], [])
  | n + 1, c :: cs =>
    match digit? c with
    | some d => (d :: (takeDigits n cs).1, (takeDigits n cs).2)
    | none => ([], c :: cs)

/-- A colour after `#`, and the rest. -/
def readHex (cs : List Char) : Except Fault (Color × List Char) :=
  let (digits, rest) := takeDigits 8 cs
  match bytes? digits with
  | some [r, g, b] => .ok (.mixed .rgb (ofByte r) (ofByte g) (ofByte b) .full, rest)
  | some [r, g, b, a] => .ok (.mixed .rgb (ofByte r) (ofByte g) (ofByte b) (ofByte a), rest)
  | _ => .error .wrongDigitCount

/-! ## Words and numbers -/

/-- Whether `c` may follow in a word: letters, `_`, `-`, and digits unless they come first, or
second after `-`. -/
def continuesWord (sofar : List Char) (c : Char) : Bool :=
  c.isAlpha || c == '_' || c == '-' ||
    (c.isDigit && !sofar.isEmpty && sofar != ['-'])

/-- The word at the start and the rest; `sofar` holds its characters so far. -/
def takeWord (sofar : List Char) : List Char → List Char × List Char
  | [] => (sofar, [])
  | c :: cs => if continuesWord sofar c then takeWord (sofar ++ [c]) cs else (sofar, c :: cs)

/-- The word at the start, if there is one. A dash or a word after two dashes is none. -/
def word? (cs : List Char) : Option (List Char × List Char) :=
  match takeWord [] cs with
  | ([], _) => none
  | (['-'], _) => none
  | ('-' :: '-' :: _, _) => none
  | found => some found

/-- The text after the end of a comment, if it is closed. -/
def closeComment? : List Char → Option (List Char)
  | '*' :: '/' :: cs => some cs
  | _ :: cs => closeComment? cs
  | [] => none

theorem length_closeComment?_le {cs rest : List Char} (h : closeComment? cs = some rest) :
    rest.length ≤ cs.length := by
  fun_induction closeComment? cs with
  | case1 cs =>
    simp only [Option.some.injEq] at h
    simp only [h, List.length_cons]
    omega
  | case2 c cs _ ih => exact Nat.le_succ_of_le (ih h)
  | case3 => simp at h

/-- The text after a comment, if one comes first and is closed. -/
def dropComment? : List Char → Option (List Char)
  | '/' :: '*' :: cs => closeComment? cs
  | _ => none

theorem length_dropComment?_lt {cs rest : List Char} (h : dropComment? cs = some rest) :
    rest.length < cs.length := by
  unfold dropComment? at h
  split at h
  · have := length_closeComment?_le h
    simp only [List.length_cons]
    omega
  · simp at h

/-- Drop blanks and comments. -/
def dropSpace (cs : List Char) : List Char :=
  match h : dropComment? (cs.dropWhile isBlank) with
  | some rest =>
    have : rest.length < cs.length :=
      Nat.lt_of_lt_of_le (length_dropComment?_lt h) (List.dropWhile_sublist isBlank).length_le
    dropSpace rest
  | none => cs.dropWhile isBlank
termination_by cs.length

/-- The text after `c`, if it comes next after blanks and comments. Nothing comes next where a
comment is not closed. -/
def expect? (c : Char) (cs : List Char) : Option (List Char) :=
  match dropSpace cs with
  | '/' :: '*' :: _ => none
  | c' :: rest => if c' = c then some rest else none
  | [] => none

/-- A sign, and the rest. -/
def takeSign : List Char → Bool × List Char
  | '+' :: cs => (false, cs)
  | '-' :: cs => (true, cs)
  | cs => (false, cs)

def digitsValue (ds : List Char) : Nat :=
  ds.foldl (fun n d => n * 10 + (d.toNat - '0'.toNat)) 0

/-- The fraction digits, if a point and a digit come next. -/
def takeFraction : List Char → List Char × List Char
  | '.' :: d :: cs =>
    if d.isDigit then (d :: cs.takeWhile (·.isDigit), cs.dropWhile (·.isDigit))
    else ([], '.' :: d :: cs)
  | cs => ([], cs)

/-- The exponent, if its mark and a digit come next. -/
def takeExponent (cs : List Char) : Int × List Char :=
  match cs with
  | [] => (0, [])
  | e :: rest =>
    if e = 'e' ∨ e = 'E' then
      let (negative, digits) := takeSign rest
      if (digits.head?.map (·.isDigit)).getD false then
        let n : Int := digitsValue (digits.takeWhile (·.isDigit))
        (if negative then -n else n, digits.dropWhile (·.isDigit))
      else (0, cs)
    else (0, cs)

/-- The number at the start, its sign and its value in 64 bits, and the rest. -/
def number? (cs : List Char) : Option (Bool × Binary × List Char) :=
  let (negative, cs) := takeSign cs
  let whole := cs.takeWhile (·.isDigit)
  let (fraction, cs) := takeFraction (cs.dropWhile (·.isDigit))
  if whole.isEmpty && fraction.isEmpty then none
  else
    let (exponent, cs) := takeExponent cs
    some (negative, double.ofDecimal (digitsValue (whole ++ fraction)) (exponent - fraction.length),
      cs)

/-! ## Parts of a mixture -/

/-- Which amounts a part may have. Amounts beyond a bound are taken as the bound. -/
inductive Range where
  | any
  | atLeastZero
  /-- From zero to a greatest amount. -/
  | upTo (most : Nat)
deriving DecidableEq, Repr

/-- An amount within the range, in 32 bits. -/
def Range.keep (range : Range) (negative : Bool) (x : Binary) : Channel :=
  let held (negative : Bool) (x : Binary) : Channel := .level (single.settle negative (single.convert x))
  match range with
  | any => held negative x
  | atLeastZero => if negative then .level .zero else held false x
  | upTo most =>
    if x.mantissa = 0 then held negative x
    else if negative then .level .zero
    else if most * x.den ≤ x.num then .level (single.quotient most 1)
    else held false x

/-- How a part of a mixture is measured. -/
inductive Measure where
  /-- By a number of units, or by a percentage. -/
  | amount (unit percent : Binary) (range : Range)
  /-- By a number of degrees, or of another unit of angles. -/
  | angle

/-- The number `digits * 10 ^ exponent` in 64 bits. -/
def decimal (digits : Nat) (exponent : Int) : Binary := double.ofDecimal digits exponent

/-- How many degrees a unit has. -/
def degrees? (unit : String) : Option Binary :=
  match unit with
  | "deg" => some (decimal 1 0)
  | "rad" => some (decimal 5729577951308232 (-14))
  | "grad" => some (decimal 9 (-1))
  | "turn" => some (decimal 360 0)
  | _ => none

/-- A word in lower case. -/
def lower (word : List Char) : String := String.ofList (word.map Char.toLower)

/-- A part that is left open by the word `none`, and the rest. -/
def readNone (refusal : Fault) (cs : List Char) : Except Fault (Channel × List Char) :=
  match word? cs with
  | some (word, rest) => if lower word = "none" then .ok (.missing, rest) else .error refusal
  | none => .error refusal

/-- A part of a mixture, and the rest. Only an angle may have a unit, and it is no percentage. -/
def readPart (measure : Measure) (cs : List Char) : Except Fault (Channel × List Char) :=
  let cs := dropSpace cs
  match measure with
  | .amount unit percent range =>
    match number? cs with
    | some (negative, x, '%' :: rest) => .ok (range.keep negative (double.mul x percent), rest)
    | some (negative, x, rest) =>
      if (word? rest).isSome then .error .unknownComponent
      else .ok (range.keep negative (double.mul x unit), rest)
    | none => readNone .unknownComponent cs
  | .angle =>
    match number? cs with
    | some (_, _, '%' :: _) => .error .unknownAngle
    | some (negative, x, rest) =>
      match word? rest with
      | none => .ok (Range.any.keep negative x, rest)
      | some (unit, rest) =>
        match degrees? (lower unit) with
        | some degrees => .ok (Range.any.keep negative (double.mul x degrees), rest)
        | none => .error .unknownAngleUnit
    | none => readNone .unknownAngle cs

/-! ## Mixtures -/

/-- How a mixture is written. -/
structure Recipe where
  form : Form
  first : Measure
  second : Measure
  third : Measure
  /-- Whether commas may stand between the parts. -/
  listable : Bool := false

namespace Recipe

/-- A share of the whole, or a number out of `whole`. -/
def share (whole : Nat) : Measure :=
  .amount (double.div (decimal 1 0) (decimal whole 0)) (decimal 1 (-2)) (.upTo 1)

/-- A percentage, with or without its sign. -/
def percentage (range : Range) : Measure := .amount (decimal 1 0) (decimal 1 0) range

/-- A number, or a percentage of which one stands for `digits * 10 ^ exponent`. -/
def scaled (digits : Nat) (exponent : Int) (range : Range) : Measure :=
  .amount (decimal 1 0) (decimal digits exponent) range

def rgb : Recipe := ⟨.rgb, share 255, share 255, share 255, true⟩

def hsl : Recipe := ⟨.hsl, .angle, percentage .atLeastZero, percentage .any, true⟩

def hwb : Recipe := ⟨.hwb, .angle, percentage .any, percentage .any, false⟩

def lab : Recipe := ⟨.lab, scaled 1 0 (.upTo 100), scaled 125 (-2) .any, scaled 125 (-2) .any, false⟩

def oklab : Recipe := ⟨.oklab, scaled 1 (-2) (.upTo 1), scaled 4 (-3) .any, scaled 4 (-3) .any, false⟩

def lch : Recipe := ⟨.lch, scaled 1 0 (.upTo 100), scaled 15 (-1) .atLeastZero, .angle, false⟩

def oklch : Recipe := ⟨.oklch, scaled 1 (-2) (.upTo 1), scaled 4 (-3) .atLeastZero, .angle, false⟩

def axes (space : Space) : Recipe :=
  ⟨.axes space, scaled 1 (-2) .any, scaled 1 (-2) .any, scaled 1 (-2) .any, false⟩

/-- The recipe of the mixtures that are written with this name. -/
def ofName? (name : String) : Option Recipe :=
  match name with
  | "rgb" | "rgba" => some rgb
  | "hsl" | "hsla" => some hsl
  | "hwb" => some hwb
  | "lab" => some lab
  | "oklab" => some oklab
  | "lch" => some lch
  | "oklch" => some oklch
  | _ => none

end Recipe

/-- The parts of a mixture up to its closing parenthesis. -/
def readParts (recipe : Recipe) (cs : List Char) : Except Fault (Color × List Char) := do
  let (first, cs) ← readPart recipe.first cs
  let (listed, cs) := match if recipe.listable then expect? ',' cs else none with
    | some rest => (true, rest)
    | none => (false, cs)
  let (second, cs) ← readPart recipe.second cs
  let cs ← if listed then
      match expect? ',' cs with
      | some rest => pure rest
      | none => throw .expectedComma
    else pure cs
  let (third, cs) ← readPart recipe.third cs
  let (alpha, cs) ← match expect? (if listed then ',' else '/') cs with
    | some rest => readPart (Recipe.share 1) rest
    | none => pure (Channel.full, cs)
  match expect? ')' cs with
  | some rest => return (.mixed recipe.form first second third alpha, rest)
  | none => throw .expectedClosing

/-- A mixture after its name. -/
def readMixture (recipe : Recipe) : List Char → Except Fault (Color × List Char)
  | '(' :: cs => readParts recipe cs
  | _ => .error .expectedArguments

/-- The space with this name, in lower case. -/
def space? (name : String) : Option Space :=
  match name with
  | "srgb" => some .srgb
  | "srgb-linear" => some .srgbLinear
  | "display-p3" => some .displayP3
  | "a98-rgb" => some .a98Rgb
  | "prophoto-rgb" => some .prophotoRgb
  | "rec2020" => some .rec2020
  | "--acescg" => some .acesCg
  | "--aces2065-1" => some .aces2065
  | "xyz-d50" => some .xyzD50
  | "xyz" | "xyz-d65" => some .xyzD65
  | _ => none

/-- Every space is found by the name that it is written with. -/
theorem space?_name (space : Space) : space? space.name = some space := by
  cases space <;> rfl

/-- A mixture that names its space. Such a name may start with two dashes. -/
def readInSpace : List Char → Except Fault (Color × List Char)
  | '(' :: cs =>
    match takeWord [] (dropSpace cs) with
    | ([], _) | (['-'], _) => .error .expectedSpace
    | (word, rest) =>
      match space? (lower word) with
      | some space => readParts (.axes space) rest
      | none => .error .unknownSpace
  | _ => .error .expectedArguments

/-! ## Colours -/

/-- A colour at the start, and the rest. -/
def readStart (cs : List Char) : Except Fault (Color × List Char) :=
  match cs with
  | '#' :: cs => readHex cs
  | cs =>
    match word? cs with
    | none => .error .unknownSyntax
    | some (word, rest) =>
      let name := lower word
      if name = "color" then readInSpace rest
      else match Recipe.ofName? name with
        | some recipe => readMixture recipe rest
        | none => if name ∈ colorNames then .ok (.named name, rest) else .error .unknownIdentifier

/-- Read a colour. White space around it does not count. -/
def read (s : String) : Except Fault Color :=
  match readStart (trimWhite s.toList) with
  | .error f => .error f
  | .ok (c, rest) => if rest.isEmpty then .ok c else .error .expectedEnd

/-- A way to read colours. -/
abbrev Reader := String → Except Fault Color

end Color

end MiniProgram
