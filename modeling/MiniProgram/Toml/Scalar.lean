/-
Plain values and keys of a TOML text, decoded. A value without quotes is a boolean, a number or a
date, and a text without quotes is refused.
-/
import MiniProgram.Number.Shortest
import MiniProgram.Toml.Moment
import MiniProgram.Toml.Quoted

namespace MiniProgram.Toml

open Text Number

/-- A plain value. -/
inductive Scalar where
  | text (s : String)
  | bool (b : Bool)
  | integer (i : Int)
  | floating (negative : Bool) (size : Binary)
  | infinite (negative : Bool)
  | notNumber
  | moment
  /-- A number that no number type holds, written as an integer or not. -/
  | overflow (whole : Bool)

/-! ## Values that are no values -/

/-- The fault of a text without quotes; where quotes close it, the opening ones are missing. -/
def unquoted (w : Written) : Fault :=
  let closed := ["'''", "\"\"\"", "'", "\""].find? fun q => q.toList.isSuffixOf w.chars
  match closed with
  | some q => .point w.start ("missing opening quote, expected `" ++ q ++ "`")
  | none => .within w.start w.stop "string values must be quoted, expected literal string"

/-- Whether characters start as a date or a time does: digits, then a dash or a colon. -/
def startsAsMoment (chars : List Char) : Bool :=
  chars.head?.any (·.isDigit) &&
    (chars.dropWhile (·.isDigit)).head?.any fun c => c == '-' || c == ':'

/-- A value that has to be a certain word, where `offset` skips a sign. -/
def word (w : Written) (offset : Nat) (kind name : String) (s : Scalar) : Except Fault Scalar :=
  if w.chars.drop offset = name.toList then .ok s
  else
    .error (.within (w.start + offset) w.stop ("invalid " ++ kind ++ ", expected `" ++ name ++ "`"))

/-! ## Numbers -/

/-- The offset of the first underscore that does not stand between two digits, for characters that
start at `offset` and follow a digit or not. -/
def strayUnderscore? (isDigit : Char → Bool) (offset : Nat) (afterDigit : Bool) :
    List Char → Option Nat
  | [] => none
  | c :: cs =>
    if c = '_' ∧ !(afterDigit && cs.head?.any isDigit) then some offset
    else strayUnderscore? isDigit (offset + c.utf8Size) (isDigit c) cs

/-- Refuse an underscore that does not stand between two digits. The characters of the number start
at byte `offset`, and `isDigit` says what may stand beside an underscore. -/
def checkUnderscores (isDigit : Char → Bool) (offset : Nat) (chars : List Char) :
    Except Fault Unit :=
  match strayUnderscore? isDigit offset false chars with
  | some i => .error (.within i (i + 1) "`_` may only go between digits, expected nothing")
  | none => .ok ()

/-- The value of digits in a base, if they are digits of that base and there is one. -/
def digitsValue? (base : Nat) (chars : List Char) : Option Nat :=
  if chars.isEmpty then none
  else chars.foldlM (fun n c => (hexValue? c).bind fun d =>
    if d < base then some (n * base + d) else none) 0

/-- An integer in a base, without its sign and its underscores. -/
def integer (negative : Bool) (base : Nat) (chars : List Char) : Scalar :=
  match digitsValue? base (chars.filter (· != '_')) with
  | none => .overflow true
  | some n =>
    let i : Int := if negative then -n else n
    if -(pow2 127 : Int) ≤ i ∧ i < pow2 128 then .integer i else .overflow true

/-- The fault of a zero before other digits. -/
def leadingZero (offset : Nat) : Fault :=
  .within offset (offset + 1) "unexpected leading zero, expected nothing"

/-- A decimal integer; `number` is what follows the sign. -/
def readInteger (w : Written) (negative : Bool) (offset : Nat) (number : List Char) :
    Except Fault Scalar := do
  if number.head? = some '0' ∧ number.length ≠ 1 then
    throw (leadingZero (w.start + offset))
  checkUnderscores isHexDigit (w.start + offset) number
  return integer negative 10 number

/-- Digits and underscores from the start of `chars`, which stands at byte `offset`, and the rest. A
part of a number without digits is refused by name. -/
def numberPart (name : String) (zeroLeads : Bool) (offset : Nat) (chars : List Char) :
    Except Fault (List Char × Nat × List Char) :=
  let part := chars.takeWhile fun c => c.isDigit || c == '_'
  let digits := part.filter (·.isDigit)
  if digits.isEmpty then .error (.point offset ("invalid " ++ name ++ ", expected digits"))
  else if !zeroLeads && 1 < digits.length && part.head? == some '0' then
    .error (leadingZero offset)
  else .ok (digits, offset + part.length, chars.drop part.length)

/-- The fraction of a number, if a point comes next. -/
def fractionPart (offset : Nat) (chars : List Char) :
    Except Fault (List Char × Nat × List Char) :=
  match chars with
  | '.' :: rest => numberPart "fraction" true (offset + 1) rest
  | chars => .ok ([], offset, chars)

/-- The exponent of a number, if its mark comes next. -/
def exponentPart (offset : Nat) (chars : List Char) : Except Fault (Int × Nat × List Char) :=
  let part (negative : Bool) (offset : Nat) (chars : List Char) := do
    let (digits, offset, rest) ← numberPart "exponent" true offset chars
    let size : Int := (digitsValue? 10 digits).getD 0
    return (if negative then -size else size, offset, rest)
  match chars with
  | c :: rest =>
    if c = 'e' ∨ c = 'E' then
      match rest with
      | '+' :: rest => part false (offset + 2) rest
      | '-' :: rest => part true (offset + 2) rest
      | rest => part false (offset + 1) rest
    else .ok (0, offset, chars)
  | [] => .ok (0, offset, [])

/-- A number with a fraction or an exponent; `number` is what follows the sign. -/
def readFloating (w : Written) (negative : Bool) (offset : Nat) (number : List Char) :
    Except Fault Scalar := do
  let start := w.start + offset
  let (whole, offset, rest) ← numberPart "mantissa" false start number
  let (fraction, offset, rest) ← fractionPart offset rest
  let (exponent, offset, rest) ← exponentPart offset rest
  if !rest.isEmpty then
    throw (.within offset w.stop "invalid float, expected nothing")
  checkUnderscores (·.isDigit) start number
  let digits := (digitsValue? 10 (whole ++ fraction)).getD 0
  let size := double.ofDecimal digits (exponent - fraction.length)
  return if double.bound.le size then .overflow false
    else .floating negative size

/-- A number or a date that starts with a digit; `number` is what follows a sign. -/
def readDigits (w : Written) (negative : Bool) (offset : Nat) (number : List Char) :
    Except Fault Scalar :=
  let rest := number.dropWhile (·.isDigit)
  match rest with
  | [] => readInteger w negative offset number
  | c :: _ =>
    if c = '-' ∨ c = ':' then
      match checkMoment (w.chars) with
      | .ok () => .ok .moment
      | .error reason => .error (.within w.start w.stop reason)
    else if rest.any fun c => c == '.' || c == 'e' || c == 'E' then
      readFloating w negative offset number
    else if c = '_' then readInteger w negative offset number
    else .error (unquoted w)

/-- An integer after its base prefix, which starts at `offset`. The prefix `0d`, which changes
nothing, is refused. -/
def readBased (w : Written) (signed : Bool) (offset : Nat) (mark : Char) (base : Nat)
    (name : String) (digits : List Char) : Except Fault Scalar := do
  let start := w.start + offset
  if signed then
    throw (.within w.start (w.start + 1)
      "integers with a radix cannot be signed, expected nothing")
  if base = 10 then
    throw (.within start (start + 2) "redundant integer number prefix, expected nothing")
  if mark.isUpper then
    throw (.within start (start + 2)
      ("radix must be lowercase, expected `0" ++ String.ofList [mark.toLower] ++ "`"))
  let valid (c : Char) : Bool := c == '_' || (hexValue? c).any (· < base)
  let good := digits.takeWhile valid
  match digits.drop good.length with
  | [] => pure ()
  | c :: _ =>
    let bad := start + 2 + good.length
    if good.isEmpty && (c == '+' || c == '-') then
      throw (.within bad (bad + 1) "unexpected sign, expected nothing")
    throw (.point bad ("invalid " ++ name ++ " number"))
  checkUnderscores isHexDigit (start + 2) digits
  return integer false base digits

/-- A number that starts with a zero. -/
def readZero (w : Written) (signed negative : Bool) (offset : Nat) (number : List Char) :
    Except Fault Scalar :=
  match number with
  | _ :: mark :: digits =>
    match mark.toLower with
    | 'x' => readBased w signed offset mark 16 "hexadecimal" digits
    | 'o' => readBased w signed offset mark 8 "octal" digits
    | 'b' => readBased w signed offset mark 2 "binary" digits
    | 'd' => readBased w signed offset mark 10 "integer" digits
    | _ => readDigits w negative offset number
  | _ => readInteger w negative offset number

/-- What follows a sign. -/
def readSigned (w : Written) (negative : Bool) (number : List Char) : Except Fault Scalar :=
  match number with
  | [] => .error (unquoted w)
  | c :: _ =>
    if c = '+' ∨ c = '-' then
      .error (.within (w.start + 1) (w.start + 2) "redundant numeric sign, expected nothing")
    else if c = '0' then readZero w true negative 1 number
    else if c.isDigit ∨ c = '_' then readDigits w negative 1 number
    else if c = '.' then .error (.point w.start "invalid mantissa, expected digits")
    else if c.toLower = 'i' then word w 1 "float" "inf" (.infinite negative)
    else if c.toLower = 'n' then word w 1 "float" "nan" .notNumber
    else .error (unquoted w)

/-- A value without quotes. Of all such values only a date can hold a space. -/
def readBare (w : Written) : Except Fault Scalar :=
  match w.chars with
  | [] => .error (unquoted w)
  | c :: rest =>
    if ' ' ∈ w.chars ∧ !startsAsMoment w.chars then .error (unquoted w)
    else if c = '+' then readSigned w false rest
    else if c = '-' then readSigned w true rest
    else if c = '0' then readZero w false false 0 w.chars
    else if c.isDigit ∨ c = '_' then readDigits w false 0 w.chars
    else if c = '.' then readFloating w false 0 w.chars
    else if c.toLower = 't' then word w 0 "boolean" "true" (.bool true)
    else if c.toLower = 'f' then word w 0 "boolean" "false" (.bool false)
    else if c.toLower = 'i' then word w 0 "float" "inf" (.infinite false)
    else if c.toLower = 'n' then word w 0 "float" "nan" .notNumber
    else .error (unquoted w)

/-- Decode a plain value. -/
def Written.scalar (w : Written) : Except Fault Scalar :=
  match Quoting.ofKind? w.kind with
  | some q => (q.decode w.start w.chars).map fun cs => .text (String.ofList cs)
  | none => readBare w

/-! ## Keys -/

/-- A decoded key and its bytes. -/
structure Key where
  start : Nat
  stop : Nat
  name : String

/-- Whether a character may stand in a key without quotes. -/
def isKeyChar (c : Char) : Bool := c.isAlphanum || c == '-' || c == '_'

/-- The text of a key. The fault of a key without quotes marks the first run of characters that it
may not have. -/
def Written.keyText (w : Written) : Except Fault (List Char) :=
  let allowed := ", expected letters, numbers, `-`, `_`"
  match Quoting.ofKind? w.kind with
  | some q =>
    if q.long then
      .error (.within w.start w.stop
        ("keys cannot be " ++ q.name ++ "s, expected basic string, literal string"))
    else q.decode w.start w.chars
  | none =>
    if w.chars.isEmpty then .error (.point w.start ("unquoted keys cannot be empty" ++ allowed))
    else
      let good := w.chars.takeWhile isKeyChar
      let rest := w.chars.drop good.length
      if rest.isEmpty then .ok w.chars
      else
        let bad := rest.takeWhile (!isKeyChar ·)
        let offset := w.start + good.length
        .error (.within offset (offset + byteLength bad) ("invalid unquoted key" ++ allowed))

def Written.key (w : Written) : Except Fault Key :=
  w.keyText.map fun cs => ⟨w.start, w.stop, String.ofList cs⟩

end MiniProgram.Toml
