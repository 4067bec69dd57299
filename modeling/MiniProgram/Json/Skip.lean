/-
Passing over a value of a JSON text that nobody asked for. The text must be well formed, but what
it holds is not kept.
-/
import MiniProgram.Json.Text
import MiniProgram.Json.Number
import MiniProgram.Text.Blank

namespace MiniProgram.Json

open Text

/-- The text after the blanks at the start. -/
def skipBlanks (s : List Char) : List Char := s.dropWhile isBlank

theorem length_skipBlanks_le (s : List Char) : (skipBlanks s).length ≤ s.length :=
  length_dropWhile_le _ s

/-- What follows the blanks at the start of `s` is shorter than `s`. -/
theorem length_lt_of_skipBlanks {s rest : List Char} {c : Char} (h : skipBlanks s = c :: rest) :
    rest.length < s.length := by
  have := length_skipBlanks_le s
  rw [h, List.length_cons] at this
  omega

/-- The rest of a literal name such as `null`. -/
def readName (name : List Char) (s : List Char) : Except Fault (Tail s) :=
  match name, s with
  | [], s => .ok (.all s)
  | _ :: _, [] => .error (.before [] .eofValue)
  | n :: name, c :: rest =>
    if n = c then (readName name rest).map (.behind c)
    else .error (.past (c :: rest) .expectedName)

/-- Pass over a value that starts with `c` and has no parts. -/
def skipScalar (c : Char) (rest : List Char) : Except Fault (Tail rest) :=
  let forget {α : Type} (r : Read rest α) : Except Fault (Tail rest) :=
    r.map fun (_, t) => t.tail
  match c with
  | 'n' => readName ['u', 'l', 'l'] rest
  | 't' => readName ['r', 'u', 'e'] rest
  | 'f' => readName ['a', 'l', 's', 'e'] rest
  | '"' => forget (skipText rest)
  | '-' => forget (scanNumeral .invalidNumber rest)
  | c =>
    if c.isDigit then
      (scanNumeral .invalidNumber (c :: rest)).map fun (_, t) =>
        ⟨t.val, Nat.le_of_lt_succ t.property⟩
    else .error (.past (c :: rest) .expectedValue)

/-- The colon between a key and its value. -/
def readColon (s : List Char) : Except Fault (Rest s) :=
  match h : skipBlanks s with
  | [] => .error (.before [] .eofObject)
  | c :: rest =>
    if c = ':' then .ok ⟨rest, length_lt_of_skipBlanks h⟩
    else .error (.past (c :: rest) .expectedColon)

/-- Pass over a key and the colon after it. -/
def skipKey (s : List Char) : Except Fault (Rest s) :=
  match h : skipBlanks s with
  | [] => .error (.before [] .eofObject)
  | c :: rest =>
    if c = '"' then do
      let ((), ⟨rest₁, h₁⟩) ← skipText rest
      let ⟨rest₂, h₂⟩ ← readColon rest₁
      return ⟨rest₂, by have := length_lt_of_skipBlanks h; omega⟩
    else .error (.past (c :: rest) .keyNotText)

/-- What encloses a value. -/
inductive Bracket where
  | list
  | object
deriving DecidableEq

namespace Bracket

def closing : Bracket → Char
  | list => ']'
  | object => '\x7d'

def eof : Bracket → Cause
  | list => .eofList
  | object => .eofObject

def expected : Bracket → Cause
  | list => .expectedListEnd
  | object => .expectedObjectEnd

end Bracket

/-- Pass over what comes before the value of an item: nothing in a list, a key in an object. -/
def skipItemStart (b : Bracket) (s : List Char) : Except Fault (Tail s) :=
  match b with
  | .list => .ok (.all s)
  | .object => (skipKey s).map Rest.tail

/-- The bracket that a character opens. -/
def Bracket.ofOpening? : Char → Option Bracket
  | '[' => some .list
  | '\x7b' => some .object
  | _ => none

mutual

/-- Pass over a value and then over all that is left of the values around it. -/
def skipValues (enclosing : List Bracket) (s : List Char) : Except Fault (Rest s) :=
  match h : skipBlanks s with
  | [] => .error (.before [] .eofValue)
  | c :: rest =>
    have hrest : rest.length < s.length := length_lt_of_skipBlanks h
    match Bracket.ofOpening? c with
    | none => do
      let ⟨rest₁, h₁⟩ ← skipScalar c rest
      let ⟨rest₂, h₂⟩ ← skipAfter enclosing rest₁
      return ⟨rest₂, by omega⟩
    | some b =>
      match h' : skipBlanks rest with
      | [] => .error (.before [] b.eof)
      | c' :: inner =>
        have hinner : inner.length < rest.length := length_lt_of_skipBlanks h'
        if c' = b.closing then do
          let ⟨rest₁, h₁⟩ ← skipAfter enclosing inner
          return ⟨rest₁, by omega⟩
        else do
          let ⟨rest₁, h₁⟩ ← skipItemStart b (c' :: inner)
          have : rest₁.length < s.length := by simp only [List.length_cons] at h₁; omega
          let ⟨rest₂, h₂⟩ ← skipValues (b :: enclosing) rest₁
          return ⟨rest₂, by omega⟩
termination_by s.length

/-- Pass over what follows a value inside the brackets around it. -/
def skipAfter (enclosing : List Bracket) (s : List Char) : Except Fault (Tail s) :=
  match enclosing with
  | [] => .ok (.all s)
  | b :: outer =>
    match h : skipBlanks s with
    | [] => .error (.before [] b.eof)
    | c :: rest =>
      have hrest : rest.length < s.length := length_lt_of_skipBlanks h
      if c = ',' then do
        let ⟨rest₁, h₁⟩ ← skipItemStart b rest
        let ⟨rest₂, h₂⟩ ← skipValues (b :: outer) rest₁
        return ⟨rest₂, by omega⟩
      else if c = b.closing then do
        let ⟨rest₁, h₁⟩ ← skipAfter outer rest
        return ⟨rest₁, by omega⟩
      else .error (.past (c :: rest) b.expected)
termination_by s.length

end

/-- Pass over one value. -/
def skipValue (s : List Char) : Except Fault (Rest s) := skipValues [] s

end MiniProgram.Json
