/-
Reading a JSON text by a schema. Data and text are checked together from left to right, so the
first fault in the text is the one reported, whether it concerns the form or what was expected.
-/
import MiniProgram.Json.Skip

namespace MiniProgram.Json

open Text Data

/-- Reads a value from the start of a text. -/
abbrev Reader := (s : List Char) → Read s Value

/-- The fault of a value that starts with `c` and is not what was expected. A value without parts is
read before it is refused, so it may have a fault of its own. -/
def misfit (expected : Schema) (c : Char) (rest : List Char) : Fault :=
  let refuse (found : Found) (rest : List Char) : Fault :=
    .before rest (.unfit (invalidType found expected))
  let named (name : List Char) (found : Found) : Fault :=
    match readName name rest with
    | .ok r => refuse found r.val
    | .error f => f
  let number (negative : Bool) (s : List Char) : Fault :=
    match scanNumeral .eofValue s with
    | .error f => f
    | .ok (n, r) => match n.found negative r.val with
      | .ok found => refuse found r.val
      | .error f => f
  match c with
  | 'n' => named ['u', 'l', 'l'] .null
  | 't' => named ['r', 'u', 'e'] (.bool true)
  | 'f' => named ['a', 'l', 's', 'e'] (.bool false)
  | '"' => match readText [] rest with
    | .ok (s, r) => refuse (.text s) r.val
    | .error f => f
  | '[' => refuse .list (c :: rest)
  | '\x7b' => refuse .table (c :: rest)
  | '-' => number true rest
  | c => if c.isDigit then number false (c :: rest) else .past (c :: rest) .expectedValue

/-! ## Lists -/

/-- The items after the first of a list, or the end of a record that is written as a list: where
the next item starts, or the text after the closing bracket. -/
def nextItem (first : Bool) (s : List Char) : Except Fault (Rest s ⊕ Tail s) :=
  match h : skipBlanks s with
  | [] => .error (.before [] .eofList)
  | c :: rest =>
    have hrest : rest.length < s.length := length_lt_of_skipBlanks h
    if c = ']' then .ok (.inl ⟨rest, hrest⟩)
    else if first then .ok (.inr ⟨c :: rest, hrest⟩)
    else if c = ',' then
      match skipBlanks rest, length_skipBlanks_le rest with
      | [], _ => .error (.before [] .eofValue)
      | c' :: rest', h' =>
        if c' = ']' then .error (.past (c' :: rest') .trailingComma)
        else .ok (.inr ⟨c' :: rest', by omega⟩)
    else .error (.past (c :: rest) .expectedListEnd)

/-- The items of a list after its opening bracket. -/
def readItems (item : Reader) (first : Bool) (s : List Char) : Read s (List Value) :=
  match nextItem first s with
  | .error f => .error f
  | .ok (.inl rest) => .ok ([], rest)
  | .ok (.inr ⟨start, h⟩) =>
    match item start with
    | .error f => .error f
    | .ok (v, ⟨rest, h'⟩) =>
      have : rest.length < s.length := by omega
      match readItems item false rest with
      | .error f => .error f
      | .ok (vs, ⟨rest', h₂⟩) => .ok (v :: vs, ⟨rest', by omega⟩)
termination_by s.length

/-- The closing bracket after the last field of a record that is written as a list. -/
def closeItems (s : List Char) : Except Fault (Rest s) :=
  match h : skipBlanks s with
  | [] => .error (.before [] .eofList)
  | c :: rest =>
    if c = ']' then .ok ⟨rest, length_lt_of_skipBlanks h⟩
    else if c = ',' then
      let after := skipBlanks rest
      .error (.past after (if after.head? = some ']' then .trailingComma else .trailingText))
    else .error (.past (c :: rest) .trailingText)

/-- The fields of a record that is written as a list, in order; the last ones may be missing. -/
def readInOrder (fields : List (String × Reader)) (first : Bool) (s : List Char) :
    Read s (List (String × Value)) :=
  match fields with
  | [] => (closeItems s).map fun rest => ([], rest)
  | (name, reader) :: fields =>
    match nextItem first s with
    | .error f => .error f
    | .ok (.inl rest) => .ok ([], rest)
    | .ok (.inr ⟨start, h⟩) =>
      match reader start with
      | .error f => .error f
      | .ok (v, ⟨rest, h'⟩) =>
        match readInOrder fields false rest with
        | .error f => .error f
        | .ok (vs, ⟨rest', h₂⟩) => .ok ((name, v) :: vs, ⟨rest', by omega⟩)

/-! ## Objects -/

/-- A key string. -/
def readKey (s : List Char) : Read s String :=
  match s with
  | [] => .error (.before [] .eofValue)
  | c :: rest =>
    if c = '"' then Read.inside c id (readText [] rest)
    else .error (.past (c :: rest) .keyNotText)

/-- The next key of an object and the text after it, or the text after the closing brace. -/
def nextKey (first : Bool) (s : List Char) : Except Fault (Rest s ⊕ (String × Rest s)) :=
  match h : skipBlanks s with
  | [] => .error (.before [] .eofObject)
  | c :: rest =>
    have hrest : rest.length < s.length := length_lt_of_skipBlanks h
    if c = '\x7d' then .ok (.inl ⟨rest, hrest⟩)
    else if first then
      (Read.within (t := c :: rest) hrest (readKey (c :: rest))).map .inr
    else if c = ',' then
      match skipBlanks rest, length_skipBlanks_le rest with
      | c' :: rest', h' =>
        if c' = '\x7d' then .error (.past (c' :: rest') .trailingComma)
        else
          have h := Nat.le_of_lt (Nat.lt_of_le_of_lt h' hrest)
          (Read.within h (readKey (c' :: rest'))).map .inr
      | [], _ => .error (.before [] .eofValue)
    else .error (.past (c :: rest) .expectedObjectEnd)

/-- The entries of a table after its opening brace. -/
def readEntries (value : Reader) (first : Bool) (s : List Char) : Read s (List (String × Value)) :=
  match nextKey first s with
  | .error f => .error f
  | .ok (.inl rest) => .ok ([], rest)
  | .ok (.inr (key, ⟨rest₁, h₁⟩)) =>
    match readColon rest₁ with
    | .error f => .error f
    | .ok ⟨rest₂, h₂⟩ =>
      match value rest₂ with
      | .error f => .error f
      | .ok (v, ⟨rest₃, h₃⟩) =>
        have : rest₃.length < s.length := by omega
        match readEntries value false rest₃ with
        | .error f => .error f
        | .ok (es, ⟨rest₄, h₄⟩) => .ok ((key, v) :: es, ⟨rest₄, by omega⟩)
termination_by s.length

/-- The fault of a field whose key has been given before, reported after the key and the blanks, or
the closing brace, that follow it. -/
def repeated (name : String) (rest : List Char) : Fault :=
  let cause := Cause.unfit (duplicateField name)
  match skipBlanks rest with
  | '\x7d' :: rest => .before rest cause
  | rest => .before rest cause

/-- The value of a key in a record: the field, or nothing for a key that is not a field. -/
def readField (fields : List (String × Reader)) (key : String) (s : List Char) :
    Read s (List (String × Value)) :=
  match fields.find? (·.1 == key) with
  | some (name, reader) => (reader s).map fun (v, rest) => ([(name, v)], rest)
  | none => (skipValue s).map fun rest => ([], rest)

/-- The fields of a record after its opening brace, where the keys `seen` have been given. -/
def readByKey (fields : List (String × Reader)) (seen : List String) (first : Bool)
    (s : List Char) : Read s (List (String × Value)) :=
  match nextKey first s with
  | .error f => .error f
  | .ok (.inl rest) => .ok ([], rest)
  | .ok (.inr (key, ⟨rest₁, h₁⟩)) =>
    if seen.contains key && fields.any (·.1 == key) then .error (repeated key rest₁)
    else match readColon rest₁ with
      | .error f => .error f
      | .ok ⟨rest₂, h₂⟩ =>
        match readField fields key rest₂ with
        | .error f => .error f
        | .ok (v, ⟨rest₃, h₃⟩) =>
          have : rest₃.length < s.length := by omega
          match readByKey fields (key :: seen) false rest₃ with
          | .error f => .error f
          | .ok (vs, ⟨rest₄, h₄⟩) => .ok (v ++ vs, ⟨rest₄, by omega⟩)
termination_by s.length

/-! ## Values -/

/-- Read what follows the blanks, by its first character. -/
def dispatch (s : List Char) (read : (c : Char) → (rest : List Char) → Read (c :: rest) Value) :
    Read s Value :=
  match skipBlanks s, length_skipBlanks_le s with
  | [], _ => .error (.before [] .eofValue)
  | c :: rest, h => (read c rest).within h

mutual

/-- The reader of a schema. -/
def reader (schema : Schema) : Reader := fun s =>
  match schema with
  | .text => dispatch s fun c rest =>
    if c = '"' then
      Read.inside c Value.text (readText [] rest)
    else .error (misfit .text c rest)
  | .list item => dispatch s fun c rest =>
    if c = '[' then
      Read.inside c Value.list (readItems (reader item) true rest)
    else .error (misfit (.list item) c rest)
  | .table value => dispatch s fun c rest =>
    if c = '\x7b' then
      Read.inside c Value.table (readEntries (reader value) true rest)
    else .error (misfit (.table value) c rest)
  | .optional inner => dispatch s fun c rest =>
    if c = 'n' then
      (readName ['u', 'l', 'l'] rest).map fun r => (.null, ⟨r.val, Nat.lt_succ_of_le r.property⟩)
    else reader inner (c :: rest)
  | .record name fields => dispatch s fun c rest =>
    if c = '[' then
      Read.inside c Value.table (readInOrder (readers fields) true rest)
    else if c = '\x7b' then
      Read.inside c Value.table (readByKey (readers fields) [] true rest)
    else .error (misfit (.record name fields) c rest)

/-- The readers of the fields of a record. -/
def readers : List (String × Schema) → List (String × Reader)
  | [] => []
  | (name, schema) :: fields => (name, reader schema) :: readers fields

end

/-- Read a whole text by a schema. -/
def read (schema : Schema) (source : String) : Except Fault Value :=
  match reader schema source.toList with
  | .error f => .error f
  | .ok (v, rest) =>
    match skipBlanks rest.val with
    | [] => .ok v
    | c :: rest => .error (.past (c :: rest) .trailingText)

end MiniProgram.Json
