/-
What a data file is expected to hold, and what was found in it. Readers of the data formats take a
schema and give back the data that fits it.
-/
import MiniProgram.Number.Binary
import MiniProgram.Text.Quoted

namespace MiniProgram.Data

open Number Text

/-- What a value is expected to be. -/
inductive Schema where
  | text
  | list (item : Schema)
  /-- Any keys, with values of one kind. -/
  | table (value : Schema)
  /-- A value that may be null. -/
  | optional (inner : Schema)
  /-- Known keys, each of which may be left out; other keys are passed over. -/
  | record (name : String) (fields : List (String × Schema))

/-- How messages name an expected value. -/
def Schema.expectation : Schema → String
  | text => "a string"
  | list _ => "a sequence"
  | table _ => "a map"
  | optional inner => inner.expectation
  | record name _ => "struct " ++ name

/-- Data that fits a schema. -/
inductive Value where
  | null
  | text (s : String)
  | list (items : List Value)
  /-- The entries of a table, or the fields of a record that are present. -/
  | table (entries : List (String × Value))

namespace Value

def asText? : Value → Option String
  | text s => some s
  | _ => none

def asList? : Value → Option (List Value)
  | list items => some items
  | _ => none

/-- The entries of a table; none of another value. -/
def entries : Value → List (String × Value)
  | table es => es
  | _ => []

/-- The field of a record. -/
def field? (v : Value) (name : String) : Option Value :=
  (v.entries.find? (·.1 == name)).map Prod.snd

/-- The text in a field, or what stands for it when it is left out. -/
def textField (v : Value) (name default : String) : String :=
  ((v.field? name).bind asText?).getD default

/-- The texts in a list field, or what stands for them when it is left out. -/
def textsField (v : Value) (name : String) (default : List String) : List String :=
  (((v.field? name).bind asList?).map (·.filterMap asText?)).getD default

end Value

/-- What stands in a data file where something else was expected. -/
inductive Found where
  | null
  | bool (b : Bool)
  | integer (i : Int)
  /-- An integer that needs more than 64 bits. -/
  | wideInteger (i : Int)
  /-- A floating-point number, by its written form. -/
  | floating (written : String)
  | text (s : String)
  | list
  | table

namespace Found

def render : Found → String
  | null => "null"
  | bool b => "boolean `" ++ (if b then "true" else "false") ++ "`"
  | integer i => "integer `" ++ toString i ++ "`"
  | wideInteger i =>
    "integer `" ++ toString i ++ "` as " ++ (if i < pow2 127 then "i128" else "u128")
  | floating written => "floating point `" ++ written ++ "`"
  | text s => "string " ++ quote s
  | list => "sequence"
  | table => "map"

end Found

/-- The message about a value of the wrong kind. -/
def invalidType (found : Found) (expected : Schema) : String :=
  "invalid type: " ++ found.render ++ ", expected " ++ expected.expectation

/-- The message about a field that is given twice. -/
def duplicateField (name : String) : String := "duplicate field `" ++ name ++ "`"

end MiniProgram.Data
