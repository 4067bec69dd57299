/-
Reading a TOML text by a schema. The whole tree is built first; then the keys of each table are
visited in order, and the first value that does not fit is reported.
-/
import MiniProgram.Data.Schema
import MiniProgram.Toml.Tree

namespace MiniProgram.Toml

open Data Number

/-- Fits a node to what is expected of it. -/
abbrev Fitter := Node → Except Fault Value

namespace Node

def start : Node → Nat
  | scalar start _ _ | list start _ _ _ | table start _ _ _ => start

def stop : Node → Nat
  | scalar _ stop _ | list _ stop _ _ | table _ stop _ _ => stop

/-- A fault about a node as a whole. -/
def fault (n : Node) (reason : String) : Fault := .within n.start n.stop reason

end Node

/-- Entries in the order they are visited. -/
def Entries.sorted (es : Entries) : Entries := es.mergeSort fun a b => decide (a.1 ≤ b.1)

/-! ## Misfits -/

/-- The message about a number that no number type holds. -/
def overflowed (whole : Bool) : String :=
  (if whole then "integer" else "floating-point") ++ " number overflowed"

/-- What a scalar is found to be, or why it is no value. -/
def Scalar.found : Scalar → Except String Found
  | text s => .ok (.text s)
  | bool b => .ok (.bool b)
  | integer i =>
    .ok (if -(pow2 63 : Int) ≤ i ∧ i < pow2 64 then .integer i else .wideInteger i)
  | floating negative size =>
    .ok (.floating ((if negative then "-" else "") ++ (double.shortest .up size).pointed))
  | infinite negative => .ok (.floating (if negative then "-inf" else "inf"))
  | notNumber => .ok (.floating "NaN")
  | moment => .ok .table
  | overflow whole => .error (overflowed whole)

/-- The fault of a node that is not what was expected. -/
def misfit (expected : Schema) (n : Node) : Fault :=
  let found : Except String Found := match n with
    | .scalar _ _ s => s.found
    | .list .. => .ok .list
    | .table .. => .ok .table
  n.fault (match found with
    | .ok found => invalidType found expected
    | .error reason => reason)

mutual

/-- The first number in a node that no number type holds. -/
def Node.overflow? : Node → Option Fault
  | .scalar start stop (.overflow whole) => some (.within start stop (overflowed whole))
  | .scalar .. => none
  | .list _ _ _ items => overflowItems? items
  | .table _ _ _ entries => (overflowEntries? entries).map Prod.snd

/-- The first such number in a list. -/
def overflowItems? : List Node → Option Fault
  | [] => none
  | n :: ns => n.overflow?.or (overflowItems? ns)

/-- The first such number in a table by the order of its keys, with its key. -/
def overflowEntries? : List (String × Node) → Option (String × Fault)
  | [] => none
  | (key, n) :: es =>
    match n.overflow?, overflowEntries? es with
    | some f, some (key', f') => some (if key' < key then (key', f') else (key, f))
    | some f, none => some (key, f)
    | none, later => later

end

/-- Pass over a value that is not asked for. -/
def passOver (n : Node) : Except Fault Unit :=
  match n.overflow? with
  | some f => .error f
  | none => .ok ()

/-! ## Fitting -/

/-- The fields of a record that is written as a table. -/
def fitByKey (fields : List (String × Fitter)) : Entries → Except Fault (List (String × Value))
  | [] => .ok []
  | (key, n) :: es =>
    match fields.find? (·.1 == key) with
    | some (_, fit) => do
      let v ← fit n
      return (key, v) :: (← fitByKey fields es)
    | none => do
      passOver n
      fitByKey fields es

/-- The fields of a record that is written as a list, in order; the last ones may be missing, and
further items are passed over. -/
def fitInOrder : List (String × Fitter) → List Node → Except Fault (List (String × Value))
  | (name, fit) :: fields, n :: ns => do
    let v ← fit n
    return (name, v) :: (← fitInOrder fields ns)
  | _, _ => .ok []

mutual

/-- The fitter of a schema. -/
def fitter (schema : Schema) : Fitter := fun n =>
  match schema with
  | .text =>
    match n with
    | .scalar _ _ (.text s) => .ok (.text s)
    | n => .error (misfit .text n)
  | .list item =>
    match n with
    | .list _ _ _ items => (items.mapM (fitter item)).map .list
    | n => .error (misfit (.list item) n)
  | .table value =>
    match n with
    | .table _ _ _ entries =>
      ((Entries.sorted entries).mapM fun e => (fitter value e.2).map fun v => (e.1, v)).map .table
    | n => .error (misfit (.table value) n)
  | .optional inner => fitter inner n
  | .record name fields =>
    match n with
    | .table _ _ _ entries => (fitByKey (fitters fields) (Entries.sorted entries)).map .table
    | .list _ _ _ items => (fitInOrder (fitters fields) items).map .table
    | .scalar _ _ .moment => .ok (.table [])
    | n => .error (misfit (.record name fields) n)

/-- The fitters of the fields of a record. -/
def fitters : List (String × Schema) → List (String × Fitter)
  | [] => []
  | (name, schema) :: fields => (name, fitter schema) :: fitters fields

end

/-- Read a whole text by a schema. -/
def read (schema : Schema) (source : String) : Except Fault Value := do
  fitter schema (.table 0 source.utf8ByteSize .headed (← tree source))

end MiniProgram.Toml
