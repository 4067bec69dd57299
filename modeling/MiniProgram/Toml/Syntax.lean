/-
The syntax of a TOML text: statements made of keys and values, none of them decoded yet. The first
fault in the form of the text is reported before any fault in what it says. Where a key or a value
is missing, an empty one often stands in its place, which is refused when it is decoded.
-/
import MiniProgram.Toml.Fault
import MiniProgram.Toml.Token

namespace MiniProgram.Toml

open Text

/-- Characters of a key or a plain value as written. -/
structure Written where
  kind : TokenKind
  start : Nat
  chars : List Char

namespace Written

def stop (w : Written) : Nat := w.start + byteLength w.chars

def ofToken (t : Token) : Written := ⟨t.kind, t.start, t.chars⟩

/-- Nothing written where a key or a value should be. -/
def nothing (offset : Nat) : Written := ⟨.atom, offset, []⟩

/-- Not even the quotes written of a text in quotes. -/
def noQuotes (offset : Nat) : Written := ⟨.literalText, offset, []⟩

end Written

/-- A value that is not decoded yet. -/
inductive RawValue where
  | plain (w : Written)
  | list (start stop : Nat) (items : List RawValue)
  | table (start stop : Nat) (pairs : List (List Written × RawValue))

/-- A line of the text. -/
inductive Statement where
  | header (start stop : Nat) (keys : List Written)
  | arrayHeader (start stop : Nat) (keys : List Written)
  | pair (keys : List Written) (value : RawValue)

/-- Where the text ends. -/
structure Ending where
  /-- The byte after the last one. -/
  offset : Nat
  /-- The byte after the last token that is no blank, comment or end of a line. -/
  solid : Nat

/-- What is left after something that may be nothing. -/
abbrev After (ts : List Token) := { r : List Token // r.length ≤ ts.length }

/-- A part read from the start of the tokens. -/
abbrev Part (ts : List Token) (α : Type) := Except Fault (α × After ts)

def After.all (ts : List Token) : After ts := ⟨ts, Nat.le_refl _⟩

def After.within {ts us : List Token} (h : us.length ≤ ts.length) (r : After us) : After ts :=
  ⟨r.val, Nat.le_trans r.property h⟩

/-! ## Blanks, comments and ends of lines -/

/-- Whether a character may stand in a comment or a text as it is. -/
def isTextChar (c : Char) : Bool := c == '\t' || (0x20 ≤ c.toNat && c.toNat != 0x7F)

/-- Check the characters of blanks, comments and ends of lines. -/
def checkTrivia (t : Token) : Except Fault Unit :=
  match t.kind with
  | .newline =>
    if t.chars = ['\r'] then
      .error (.point t.stop "carriage return must be followed by newline, expected newline")
    else .ok ()
  | .comment =>
    let clean := t.chars.takeWhile isTextChar
    if clean.length < t.chars.length then
      let offset := t.start + byteLength clean
      .error (.point offset "invalid comment character, expected printable characters")
    else .ok ()
  | _ => .ok ()

def skipBlank (ts : List Token) : After ts :=
  match ts with
  | t :: rest => if t.kind = .blank then ⟨rest, Nat.le_succ _⟩ else .all _
  | [] => .all _

/-- What ends a line: blanks, then a comment or the end of the line. -/
def endLine (ts : List Token) : Part ts Unit :=
  match ts with
  | [] => .ok ((), .all _)
  | t :: rest =>
    match t.kind with
    | .blank =>
      match endLine rest with
      | .ok ((), r) => .ok ((), r.within (Nat.le_succ _))
      | .error f => .error f
    | .comment | .newline =>
      match checkTrivia t with
      | .ok () => .ok ((), ⟨rest, Nat.le_succ _⟩)
      | .error f => .error f
    | _ => .error (.point t.start "unexpected key or value, expected newline, `#`")

/-- Pass over the rest of a line. -/
def skipLine (ts : List Token) : Part ts Unit :=
  match ts with
  | [] => .ok ((), .all _)
  | t :: rest =>
    match checkTrivia t with
    | .error f => .error f
    | .ok () =>
      if t.kind = .newline then .ok ((), ⟨rest, Nat.le_succ _⟩)
      else
        match skipLine rest with
        | .ok ((), r) => .ok ((), r.within (Nat.le_succ _))
        | .error f => .error f

/-! ## Keys -/

/-- The parts of a key with dots between them, and whether the last one is there. A part has to
come next, or a dot may. A part that is missing is left empty. -/
def readKeys (eof : Nat) (needsPart : Bool) (ts : List Token) : (List Written × Bool) × After ts :=
  match ts with
  | [] => (if needsPart then ([.nothing eof], false) else ([], true), .all _)
  | t :: rest =>
    match t.kind, needsPart with
    | .blank, needsPart =>
      let (keys, r) := readKeys eof needsPart rest
      (keys, r.within (Nat.le_succ _))
    | .dot, needsPart =>
      let ((keys, full), r) := readKeys eof true rest
      ((if needsPart then .nothing t.start :: keys else keys, full), r.within (Nat.le_succ _))
    | kind, true =>
      if kind.isWord then
        let ((keys, full), r) := readKeys eof false rest
        ((.ofToken t :: keys, full), r.within (Nat.le_succ _))
      else (([.nothing t.start], false), .all _)
    | _, false => (([], true), .all _)

/-- Where the last part of a key ends. -/
def keyStop (keys : List Written) : Nat := (keys.getLast?.map (·.stop)).getD 0

/-! ## Values -/

/-- The rest of a value without quotes: words and dots, and blanks before words. -/
def bareRest (sofar : List Char) (ts : List Token) : List Char × After ts :=
  match ts with
  | [] => (sofar, .all _)
  | t :: rest =>
    if t.kind = .atom ∨ t.kind = .dot ∨
        (t.kind = .blank ∧ rest.head?.any fun u => u.kind = .atom) then
      let (cs, r) := bareRest (sofar ++ t.chars) rest
      (cs, r.within (Nat.le_succ _))
    else (sofar, .all _)

/-- How deep arrays and inline tables may stand in each other. -/
def depthLimit : Nat := 80

def tooDeep (t : Token) : Fault :=
  .within t.start t.stop "cannot recurse further; max recursion depth met"

/-- A fault where a token starts. -/
def Token.fault (t : Token) (reason : String) : Fault := .point t.start reason

/-- What an inline table needs next. -/
inductive Need where
  | key
  | equals (keys : List Written)
  | value (keys : List Written)
  | comma

/-- How messages name it. -/
def Need.name : Need → String
  | key => "key"
  | equals _ => "`=`"
  | value _ => "value"
  | comma => "`,`"

/-- The fault of a token that an inline table does not need. -/
def Need.unmet (need : Need) (t : Token) (reason : String) : Fault :=
  t.fault (reason ++ ", expected " ++ need.name)

/-- The fault of a word or an opening bracket, where an inline table needs no value. -/
def Need.notValue (need : Need) (t : Token) : Fault :=
  need.unmet t (match need with
    | .equals _ => "missing assignment between key-value pairs"
    | _ => if t.kind.isOpening then "missing key for inline table element"
      else "missing comma between key-value pairs")

mutual

/-- The value that starts with a token. -/
def readValue (e : Ending) (depth : Nat) (t : Token) (rest : List Token) : Part rest RawValue :=
  match t.kind, depth with
  | .equals, _ => .error (t.fault "extra `=`, expected nothing")
  | .closeCurly, _ => .error (t.fault "missing inline table opening, expected `\x7b`")
  | .closeSquare, _ => .error (t.fault "missing array opening, expected `[`")
  | .openSquare, 0 | .openCurly, 0 => .error (tooDeep t)
  | .openSquare, depth + 1 =>
    match readItems e depth true rest with
    | .ok ((items, stop), r) => .ok (.list t.start stop items, r)
    | .error f => .error f
  | .openCurly, depth + 1 =>
    match readPairs e depth .key rest with
    | .ok ((pairs, stop), r) => .ok (.table t.start stop pairs, r)
    | .error f => .error f
  | .atom, _ | .dot, _ =>
    let (cs, r) := bareRest t.chars rest
    .ok (.plain ⟨.atom, t.start, cs⟩, r)
  | _, _ => .ok (.plain (.ofToken t), .all _)
termination_by (rest.length, 1)

/-- The items of an array after its opening bracket, and where it ends; `needsValue` tells whether
an item may come next, or a comma has to. -/
def readItems (e : Ending) (depth : Nat) (needsValue : Bool) (ts : List Token) :
    Part ts (List RawValue × Nat) :=
  match ts with
  | [] => .error (.point e.solid "unclosed array, expected `]`")
  | t :: rest =>
    match t.kind with
    | .comment | .blank | .newline =>
      match checkTrivia t with
      | .error f => .error f
      | .ok () =>
        match readItems e depth needsValue rest with
        | .ok (items, r) => .ok (items, r.within (Nat.le_succ _))
        | .error f => .error f
    | .comma =>
      if needsValue then .error (t.fault "extra comma in array, expected value")
      else
        match readItems e depth true rest with
        | .ok (items, r) => .ok (items, r.within (Nat.le_succ _))
        | .error f => .error f
    | .equals => .error (t.fault "unexpected `=` in array, expected value, `]`")
    | .closeSquare => .ok (([], t.stop), ⟨rest, Nat.le_succ _⟩)
    | _ =>
      if !needsValue then .error (t.fault "missing comma between array elements, expected `,`")
      else
        match readValue e depth t rest with
        | .error f => .error f
        | .ok (v, ⟨after, h⟩) =>
          match readItems e depth false after with
          | .ok ((items, stop), r) =>
            .ok ((v :: items, stop), r.within (Nat.le_trans h (Nat.le_succ _)))
          | .error f => .error f
termination_by (ts.length, 0)
decreasing_by all_goals simp_wf; omega

/-- The pairs of an inline table after its opening brace, and where it ends. A pair that breaks off
before the closing brace has an empty value. -/
def readPairs (e : Ending) (depth : Nat) (need : Need) (ts : List Token) :
    Part ts (List (List Written × RawValue) × Nat) :=
  match ts with
  | [] => .error (.point e.solid "unclosed inline table, expected `\x7d`")
  | t :: rest =>
    let proceed (need : Need) : Part (t :: rest) (List (List Written × RawValue) × Nat) :=
      match readPairs e depth need rest with
      | .ok (pairs, r) => .ok (pairs, r.within (Nat.le_succ _))
      | .error f => .error f
    match t.kind, need with
    | .comment, need | .blank, need | .newline, need =>
      match checkTrivia t with
      | .error f => .error f
      | .ok () => proceed need
    | .comma, .comma => proceed .key
    | .comma, need => .error (need.unmet t "extra comma in inline table")
    | .equals, .key => proceed (.value [.nothing t.start])
    | .equals, .equals keys => proceed (.value keys)
    | .equals, need => .error (need.unmet t "extra assignment between key-value pairs")
    | .closeCurly, .equals keys | .closeCurly, .value keys =>
      .ok (([(keys, .plain (.noQuotes t.start))], t.stop), ⟨rest, Nat.le_succ _⟩)
    | .closeCurly, _ => .ok (([], t.stop), ⟨rest, Nat.le_succ _⟩)
    | .dot, .key =>
      let ((keys, _), ⟨after, h⟩) := readKeys e.offset true rest
      match readPairs e depth (.equals (.nothing t.start :: keys)) after with
      | .ok (pairs, r) => .ok (pairs, r.within (Nat.le_trans h (Nat.le_succ _)))
      | .error f => .error f
    | _, .value keys =>
      match readValue e depth t rest with
      | .error f => .error f
      | .ok (v, ⟨after, h⟩) =>
        match readPairs e depth .comma after with
        | .ok ((pairs, stop), r) =>
          .ok (((keys, v) :: pairs, stop), r.within (Nat.le_trans h (Nat.le_succ _)))
        | .error f => .error f
    | .closeSquare, need => .error (need.unmet t "invalid inline table element")
    | kind, .key =>
      if kind.isWord then
        let ((keys, _), ⟨after, h⟩) := readKeys e.offset false rest
        match readPairs e depth (.equals (.ofToken t :: keys)) after with
        | .ok (pairs, r) => .ok (pairs, r.within (Nat.le_trans h (Nat.le_succ _)))
        | .error f => .error f
      else .error (Need.key.notValue t)
    | _, need => .error (need.notValue t)
termination_by (ts.length, 0)
decreasing_by all_goals simp_wf; omega

end

/-- The value after `=`. Where none is written, an empty one is read. -/
def readAssigned (e : Ending) (ts : List Token) : Part ts RawValue :=
  match ts with
  | [] => .ok (.plain (.nothing e.offset), .all _)
  | t :: rest =>
    match t.kind with
    | .comment | .comma | .newline => .ok (.plain (.nothing t.start), .all _)
    | _ =>
      match readValue e depthLimit t rest with
      | .ok (v, r) => .ok (v, r.within (Nat.le_succ _))
      | .error f => .error f

/-! ## Statements -/

/-- A header after its opening brackets. A missing bracket is no fault where the key is at fault
already. -/
def readHeader (e : Ending) (start : Nat) (array : Bool) (ts : List Token) : Part ts Statement :=
  let ((keys, full), ⟨after, h⟩) := readKeys e.offset true ts
  let made (stop : Nat) : Statement :=
    if array then .arrayHeader start stop keys else .header start stop keys
  let unclosed : Part ts Statement :=
    if full then
      .error (.point (keyStop keys) (if array then "unclosed array table, expected `]]`"
        else "unclosed table, expected `]`"))
    else
      match skipLine after with
      | .ok ((), r) => .ok (made (keyStop keys), r.within h)
      | .error f => .error f
  let finish (stop : Nat) (rest : List Token) (h : rest.length ≤ ts.length) : Part ts Statement :=
    match endLine rest with
    | .ok ((), r) => .ok (made stop, r.within h)
    | .error f => .error f
  match after, array with
  | [], _ => unclosed
  | c :: rest, array =>
    if c.kind ≠ .closeSquare then unclosed
    else if !array then finish c.stop rest (by simp only [List.length_cons] at h; omega)
    else match rest with
      | d :: more =>
        if d.kind = .closeSquare then
          finish d.stop more (by simp only [List.length_cons] at h; omega)
        else .error (.point c.stop "unclosed array table, expected `]`")
      | [] => .error (.point c.stop "unclosed array table, expected `]`")

/-- What follows a key; `missing` is said where no value does. -/
def readPair (e : Ending) (missing : String) (keys : List Written) (ts : List Token) :
    Part ts Statement :=
  match ts with
  | [] => .error (.point e.offset (missing ++ ", expected `=`"))
  | t :: rest =>
    if t.kind = .equals then
      match skipBlank rest with
      | ⟨rest₁, h₁⟩ =>
        match readAssigned e rest₁ with
        | .error f => .error f
        | .ok (v, ⟨rest₂, h₂⟩) =>
          match endLine rest₂ with
          | .error f => .error f
          | .ok ((), r) =>
            .ok (.pair keys v, r.within (by simp only [List.length_cons]; omega))
    else .error (t.fault (missing ++ ", expected `=`"))

/-- The statement that starts with a token. -/
def readStatement (e : Ending) (t : Token) (rest : List Token) : Part rest Statement :=
  match t.kind with
  | .openSquare =>
    match rest with
    | u :: more =>
      if u.kind = .openSquare then
        match readHeader e t.start true more with
        | .ok (s, r) => .ok (s, r.within (Nat.le_succ _))
        | .error f => .error f
      else readHeader e t.start false (u :: more)
    | [] => readHeader e t.start false []
  | .closeSquare => .error (t.fault "missing table open, expected `[`")
  | .dot =>
    let ((keys, _), ⟨after, h⟩) := readKeys e.offset true rest
    match readPair e "missing value for key" (.nothing t.start :: keys) after with
    | .ok (s, r) => .ok (s, r.within h)
    | .error f => .error f
  | .equals =>
    match skipBlank rest with
    | ⟨rest₁, h₁⟩ =>
      match readAssigned e rest₁ with
      | .error f => .error f
      | .ok (v, ⟨rest₂, h₂⟩) =>
        match endLine rest₂ with
        | .error f => .error f
        | .ok ((), r) => .ok (.pair [.nothing t.start] v, r.within (Nat.le_trans h₂ h₁))
  | kind =>
    if kind.isWord then
      let ((keys, _), ⟨after, h⟩) := readKeys e.offset false rest
      match readPair e "key with no value" (.ofToken t :: keys) after with
      | .ok (s, r) => .ok (s, r.within h)
      | .error f => .error f
    else .error (t.fault "invalid key-value pair, expected key")

/-- The statements of a text. -/
def statements (e : Ending) (ts : List Token) : Except Fault (List Statement) :=
  match ts with
  | [] => .ok []
  | t :: rest =>
    if t.kind.isTrivia then
      match checkTrivia t with
      | .error f => .error f
      | .ok () => statements e rest
    else
      match readStatement e t rest with
      | .error f => .error f
      | .ok (s, ⟨after, h⟩) =>
        have : after.length < (t :: rest).length := Nat.lt_succ_of_le h
        (statements e after).map (s :: ·)
termination_by ts.length
decreasing_by all_goals simp only [List.length_cons] at *; omega

/-- The statements of a source. -/
def parse (source : String) : Except Fault (List Statement) :=
  let ts := tokens source.toList
  let solid := ts.reverse.find? fun t => !t.kind.isTrivia
  statements ⟨byteLength source.toList, (solid.map Token.stop).getD 0⟩ ts

end MiniProgram.Toml
