/-
Strings of a JSON text, from the character after the opening quote on. A string is either decoded
or only passed over; passing over checks less.
-/
import MiniProgram.Json.Fault
import MiniProgram.Text.Hex

namespace MiniProgram.Json

open Text

/-- The number that four hexadecimal digits write. -/
def hexFour? (a b c d : Char) : Option Nat := do
  return (((← hexValue? a) * 16 + (← hexValue? b)) * 16 + (← hexValue? c)) * 16 + (← hexValue? d)

/-- The four hexadecimal digits of an escape. Four bytes are taken before they are looked at. -/
def readHex (s : List Char) : Read s Nat :=
  let refused : Fault := ⟨if byteLength s < 4 then .eofText else .invalidEscape, byteLength s - 4⟩
  match s with
  | a :: b :: c :: d :: rest =>
    match hexFour? a b c d with
    | some n => .ok (n, ⟨rest, by simp only [List.length_cons]; omega⟩)
    | none => .error refused
  | _ => .error refused

/-- The second halves of surrogate pairs. -/
def isLowSurrogate (n : Nat) : Bool := 0xDC00 ≤ n && n ≤ 0xDFFF

/-- The first halves of surrogate pairs. -/
def isHighSurrogate (n : Nat) : Bool := 0xD800 ≤ n && n ≤ 0xDBFF

/-- The character of an escape after `\u`: one unit, or two that make a surrogate pair. -/
def readUnicode (s : List Char) : Read s Char :=
  match readHex s with
  | .error f => .error f
  | .ok (n, ⟨rest, h⟩) =>
    if isLowSurrogate n then .error (.before rest .loneSurrogate)
    else if !isHighSurrogate n then .ok (Char.ofNat n, ⟨rest, h⟩)
    else match rest with
      | [] => .error (.before [] .eofText)
      | ['\\'] => .error (.before [] .eofText)
      | '\\' :: 'u' :: rest =>
        match readHex rest with
        | .error f => .error f
        | .ok (low, ⟨rest, h'⟩) =>
          if isLowSurrogate low then
            .ok (Char.ofNat (0x10000 + (n - 0xD800) * 0x400 + (low - 0xDC00)),
              ⟨rest, by simp only [List.length_cons] at h; omega⟩)
          else .error (.before rest .loneSurrogate)
      | '\\' :: rest => .error (.past rest .unfinishedSurrogate)
      | rest => .error (.past rest .unfinishedSurrogate)

/-- The character that a one-letter escape stands for. -/
def simpleEscape? : Char → Option Char
  | '"' => some '"'
  | '\\' => some '\\'
  | '/' => some '/'
  | 'b' => some '\x08'
  | 'f' => some '\x0c'
  | 'n' => some '\n'
  | 'r' => some '\r'
  | 't' => some '\t'
  | _ => none

/-- An escape after its backslash, where `unicode` reads what follows `\u`. -/
def readEscape {α : Type} (simple : Char → α) (unicode : (t : List Char) → Read t α)
    (s : List Char) : Read s α :=
  match s with
  | [] => .error (.before [] .eofText)
  | 'u' :: rest => (unicode rest).inside 'u' id
  | c :: rest =>
    match simpleEscape? c with
    | some c' => .ok (simple c', .afterFirst c rest)
    | none => .error (.past (c :: rest) .invalidEscape)

/-- Whether a character may not stand in a string as it is. -/
def isControl (c : Char) : Bool := c.toNat < 0x20

/-- Decode a string; `done` holds the characters so far, the last one first. -/
def readText (done : List Char) (s : List Char) : Read s String :=
  match s with
  | [] => .error (.before [] .eofText)
  | '"' :: rest => .ok (String.ofList done.reverse, .afterFirst '"' rest)
  | '\\' :: rest =>
    match readEscape id readUnicode rest with
    | .error f => .error f
    | .ok (c, ⟨rest', h⟩) =>
      (readText (c :: done) rest').within
        (by simp only [List.length_cons]; omega)
  | c :: rest =>
    if isControl c then .error (.before rest .controlCharacter)
    else (readText (c :: done) rest).inside c id
termination_by s.length

/-- Pass over a string. Surrogates need not be paired. -/
def skipText (s : List Char) : Read s Unit :=
  match s with
  | [] => .error (.before [] .eofText)
  | '"' :: rest => .ok ((), .afterFirst '"' rest)
  | '\\' :: rest =>
    match readEscape (fun _ => ()) (fun t => (readHex t).map fun (_, r) => ((), r)) rest with
    | .error f => .error f
    | .ok ((), ⟨rest', h⟩) =>
      (skipText rest').within (by simp only [List.length_cons]; omega)
  | c :: rest =>
    if isControl c then .error (.before (c :: rest) .controlCharacter)
    else (skipText rest).inside c id
termination_by s.length

end MiniProgram.Json
