/-
Characters measured in bytes. Offsets into source text count the bytes of its UTF-8 form, so a list
of characters has a byte length, can be cut at a byte offset, and can be recovered from bytes that
need not be well formed.
-/

namespace MiniProgram.Text

/-- The number of bytes that `cs` takes in UTF-8. -/
def byteLength : List Char → Nat
  | [] => 0
  | c :: cs => c.utf8Size + byteLength cs

@[simp] theorem byteLength_nil : byteLength [] = 0 := rfl

@[simp] theorem byteLength_cons (c : Char) (cs : List Char) :
    byteLength (c :: cs) = c.utf8Size + byteLength cs := rfl

@[simp] theorem byteLength_append (xs ys : List Char) :
    byteLength (xs ++ ys) = byteLength xs + byteLength ys := by
  induction xs with
  | nil => simp
  | cons c cs ih => simp [ih, Nat.add_assoc]

theorem length_le_byteLength (cs : List Char) : cs.length ≤ byteLength cs := by
  induction cs with
  | nil => simp
  | cons c cs ih =>
    have := c.utf8Size_pos
    simp only [List.length_cons, byteLength_cons]
    omega

/-- The characters that lie wholly before byte `offset`, and the rest. An offset inside a character
is rounded down to its start. -/
def cutAt : Nat → List Char → List Char × List Char
  | _, [] => ([], [])
  | offset, c :: cs =>
    if c.utf8Size ≤ offset then
      let (before, after) := cutAt (offset - c.utf8Size) cs
      (c :: before, after)
    else ([], c :: cs)

theorem cutAt_append (offset : Nat) (cs : List Char) :
    (cutAt offset cs).1 ++ (cutAt offset cs).2 = cs := by
  induction cs generalizing offset with
  | nil => simp [cutAt]
  | cons c cs ih =>
    simp only [cutAt]
    split
    · simpa using ih (offset - c.utf8Size)
    · simp

theorem byteLength_cutAt_le (offset : Nat) (cs : List Char) :
    byteLength (cutAt offset cs).1 ≤ offset := by
  induction cs generalizing offset with
  | nil => simp [cutAt]
  | cons c cs ih =>
    simp only [cutAt]
    split
    · have := ih (offset - c.utf8Size)
      simp only [byteLength_cons]
      omega
    · simp

/-! ## Recovering text from bytes -/

/-- The range that the second byte of a sequence with this first byte must lie in, and how many
bytes follow the first; nothing if no sequence starts with it. The ranges exclude overlong forms,
surrogates and code points above `10FFFF`. -/
def sequenceShape (first : UInt8) : Option (UInt8 × UInt8 × Nat) :=
  if 0xC2 ≤ first && first ≤ 0xDF then some (0x80, 0xBF, 1)
  else if first == 0xE0 then some (0xA0, 0xBF, 2)
  else if first == 0xED then some (0x80, 0x9F, 2)
  else if 0xE1 ≤ first && first ≤ 0xEF then some (0x80, 0xBF, 2)
  else if first == 0xF0 then some (0x90, 0xBF, 3)
  else if 0xF1 ≤ first && first ≤ 0xF3 then some (0x80, 0xBF, 3)
  else if first == 0xF4 then some (0x80, 0x8F, 3)
  else none

/-- The value bits of a first byte that `n` bytes follow. -/
def leadBits (first : UInt8) (n : Nat) : Nat :=
  first.toNat % (if n = 1 then 32 else if n = 2 then 16 else 8)

/-- Read up to `n` continuation bytes onto `acc`, the first of them within `lo..hi` and the others
within `80..BF`: how many were read, and the code point if all were there. -/
def continuation (lo hi : UInt8) : Nat → Nat → List UInt8 → Nat × Option Nat
  | 0, acc, _ => (0, some acc)
  | n + 1, acc, b :: bs =>
    if lo ≤ b && b ≤ hi then
      let (used, result) := continuation 0x80 0xBF n (acc * 64 + b.toNat % 64) bs
      (used + 1, result)
    else (0, none)
  | _ + 1, _, [] => (0, none)

/-- The character at the head of `b :: bs` and how many of `bs` belong to it, or, when the bytes
there are ill formed, how many of `bs` belong to the longest start of a character. -/
def firstChar (b : UInt8) (bs : List UInt8) : Option Char × Nat :=
  if b < 0x80 then (some (Char.ofNat b.toNat), 0)
  else match sequenceShape b with
    | none => (none, 0)
    | some (lo, hi, n) =>
      match continuation lo hi n (leadBits b n) bs with
      | (used, some code) => (some (Char.ofNat code), used)
      | (used, none) => (none, used)

/-- Decode UTF-8, writing U+FFFD for each maximal ill-formed piece. -/
def decodeLossy : List UInt8 → List Char
  | [] => []
  | b :: bs =>
    match firstChar b bs with
    | (some c, n) => c :: decodeLossy (bs.drop n)
    | (none, n) => '\uFFFD' :: decodeLossy (bs.drop n)
termination_by bytes => bytes.length
decreasing_by all_goals simp only [List.length_cons, List.length_drop]; omega

/-- Decode UTF-8, refusing ill-formed bytes. -/
def decodeStrict? : List UInt8 → Option (List Char)
  | [] => some []
  | b :: bs =>
    match firstChar b bs with
    | (some c, n) => (decodeStrict? (bs.drop n)).map (c :: ·)
    | (none, _) => none
termination_by bytes => bytes.length
decreasing_by simp only [List.length_cons, List.length_drop]; omega

end MiniProgram.Text
