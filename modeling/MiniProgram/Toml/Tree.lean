/-
The tree of a TOML text. Headers and dotted keys open tables on their way; a table that is defined
in one place may not be defined again in another, and a value that is no table cannot be extended.
-/
import MiniProgram.Toml.Scalar

namespace MiniProgram.Toml

/-- How a table came to be. -/
inductive TableForm where
  /-- By a header of its own, or the root. -/
  | headed
  /-- On the way of a header. -/
  | passed
  /-- By dotted keys, inside an inline table or not. -/
  | dotted (inline : Bool)
  /-- As an inline table. -/
  | inline
deriving DecidableEq

namespace TableForm

/-- Whether dotted keys may go on in the table. -/
def isImplicit : TableForm → Bool
  | passed | dotted _ => true
  | headed | inline => false

def isInline : TableForm → Bool
  | inline | dotted true => true
  | _ => false

end TableForm

/-- A node of the tree with the bytes it stands in. -/
inductive Node where
  | scalar (start stop : Nat) (value : Scalar)
  /-- A list; `headed` where array headers made it. -/
  | list (start stop : Nat) (headed : Bool) (items : List Node)
  | table (start stop : Nat) (form : TableForm) (entries : List (String × Node))

/-- The entries of a table in the order they were made. -/
abbrev Entries := List (String × Node)

/-! ## Tables -/

namespace Key

def duplicate (k : Key) : Fault := .within k.start k.stop "duplicate key"

/-- The fault of a key that leads on from something that is no table. -/
def notExtensible (k : Key) (kind : String) : Fault :=
  .within k.start k.stop ("cannot extend value of type " ++ kind ++ " with a dotted key")

end Key

def Entries.find? (es : Entries) (name : String) : Option Node :=
  (List.find? (fun e => e.1 == name) es).map Prod.snd

def Entries.replace (es : Entries) (name : String) (node : Node) : Entries :=
  es.map fun e => if e.1 == name then (name, node) else e

/-- How messages name a scalar. -/
def Scalar.kind : Scalar → String
  | text _ => "string"
  | bool _ => "boolean"
  | integer _ | overflow true => "integer"
  | floating .. | infinite _ | notNumber | overflow false => "float"
  | moment => "datetime"

/-- Where a path of keys is followed. -/
inductive Route where
  /-- In a header. -/
  | header
  /-- In front of a value, inside an inline table or not. -/
  | dotted (inline : Bool)
deriving DecidableEq

/-- How a table is made on a route. -/
def Route.form : Route → TableForm
  | header => .passed
  | dotted inline => .dotted inline

/-- A change of a table that may be refused, and what it brings to light. -/
abbrev Change (α : Type) := TableForm → Entries → Except Fault (α × Entries)

/-- Change the table that a path leads to, making the tables on the way that are missing. In a list
that headers made, the last item is taken. -/
def alterAt {α : Type} (route : Route) (change : Change α) : List Key → Change α
  | [], form, es => change form es
  | key :: path, _, es =>
    match es.find? key.name with
    | none =>
      (alterAt route change path route.form []).map fun (a, inner) =>
        (a, es ++ [(key.name, .table key.start key.stop route.form inner)])
    | some (.table start stop form inner) =>
      if form.isInline ∧ route ≠ .dotted true then .error (key.notExtensible "inline table")
      else if route ≠ .header ∧ !form.isImplicit then .error key.duplicate
      else (alterAt route change path form inner).map fun (a, inner) =>
        (a, es.replace key.name (.table start stop form inner))
    | some (.list start stop true items) =>
      match items.getLast? with
      | some (.table start' stop' form inner) =>
        (alterAt route change path form inner).map fun (a, inner) =>
          (a, es.replace key.name
            (.list start stop true (items.dropLast ++ [.table start' stop' form inner])))
      | _ => .error (key.notExtensible "array")
    | some (.list _ _ false _) => .error (key.notExtensible "array")
    | some (.scalar _ _ s) => .error (key.notExtensible s.kind)

/-- The keys before the last one, and the last one. -/
def splitPath (key : Key) : List Key → List Key × Key
  | [] => ([], key)
  | next :: keys =>
    let (path, last) := splitPath next keys
    (key :: path, last)

/-- Put a value under a key and the dotted keys before it. -/
def addPair (inline : Bool) (form : TableForm) (key : Key) (keys : List Key) (node : Node)
    (es : Entries) : Except Fault Entries :=
  let (path, last) := splitPath key keys
  let put : Change Unit := fun form es =>
    -- dotted keys do not fill a table that has been defined elsewhere
    if !path.isEmpty && !form.isImplicit then .error last.duplicate
    else if (es.find? last.name).isSome then .error last.duplicate
    else .ok ((), es ++ [(last.name, node)])
  (alterAt (.dotted inline) put path form es).map Prod.snd

/-! ## Values -/

/-- How many keys may stand before the last one of a path. -/
def pathLimit : Nat := 79

/-- Decode the keys of a path, of which there is at least one. -/
def decodeKeys (written : List Written) : Except Fault (List Key) := do
  let keys ← written.mapM Written.key
  if pathLimit + 1 < keys.length then throw (.overall "recursion limit")
  return keys

mutual

/-- Decode a value. -/
def decodeValue : RawValue → Except Fault Node
  | .plain w => w.scalar.map (.scalar w.start w.stop)
  | .list start stop items => (decodeItems items).map (.list start stop false)
  | .table start stop pairs => (decodePairs [] pairs).map (.table start stop .inline)

/-- Decode the items of a list. -/
def decodeItems : List RawValue → Except Fault (List Node)
  | [] => .ok []
  | v :: vs => do
    let node ← decodeValue v
    return node :: (← decodeItems vs)

/-- Decode the pairs of an inline table that has the given entries already. -/
def decodePairs (es : Entries) : List (List Written × RawValue) → Except Fault Entries
  | [] => .ok es
  | (written, v) :: pairs => do
    let keys ← decodeKeys written
    let node ← decodeValue v
    match keys with
    | [] => decodePairs es pairs
    | key :: keys => decodePairs (← addPair true .inline key keys node es) pairs

end

/-! ## Statements -/

/-- The header of the table that is being filled. -/
structure Section where
  array : Bool
  start : Nat
  stop : Nat
  path : List Key
  key : Key

/-- A tree that is being built: what is finished, and the table that is being filled. -/
structure Progress where
  root : Entries
  sec : Option Section
  current : Entries

namespace Progress

/-- Put the table that is being filled into its place. -/
def finish (p : Progress) : Except Fault Entries :=
  match p.sec with
  | none => .ok p.current
  | some s =>
    let table : Node := .table s.start s.stop .headed p.current
    let put : Change Unit := fun _ es =>
      if s.array then
        match es.find? s.key.name with
        | none => .ok ((), es ++ [(s.key.name, .list s.start s.stop true [table])])
        | some (.list start stop true items) =>
          .ok ((), es.replace s.key.name (.list start stop true (items ++ [table])))
        | some _ => .error s.key.duplicate
      else .ok ((), es ++ [(s.key.name, table)])
    (alterAt .header put s.path .headed p.root).map Prod.snd

/-- Take out the table that a header names, if one has been passed on the way of a longer header: a
table that has been defined is refused. -/
def takeOut (key : Key) : Change Entries := fun _ es =>
  match es.find? key.name with
  | none => .ok ([], es)
  | some (.table _ _ .passed inner) => .ok (inner, es.filter (·.1 != key.name))
  | some _ => .error key.duplicate

/-- Start a table by its header. The table before it is put into its place first. -/
def start (p : Progress) (array : Bool) (first last : Nat) (written : List Written) :
    Except Fault Progress := do
  let root ← p.finish
  let keys ← decodeKeys written
  match keys with
  | [] => return ⟨root, none, root⟩
  | key :: keys =>
    let (path, key) := splitPath key keys
    let s : Section := ⟨array, first, last, path, key⟩
    if array then return ⟨root, some s, []⟩
    else
      let (inner, root) ← alterAt .header (takeOut key) path .headed root
      return ⟨root, some s, inner⟩

/-- Take in a statement. -/
def step (p : Progress) : Statement → Except Fault Progress
  | .header first last written => p.start false first last written
  | .arrayHeader first last written => p.start true first last written
  | .pair written value => do
    let keys ← decodeKeys written
    let node ← decodeValue value
    match keys with
    | [] => return p
    | key :: keys =>
      return { p with current := ← addPair false .headed key keys node p.current }

end Progress

/-- The entries of a text. -/
def tree (source : String) : Except Fault Entries := do
  let progress ← (← parse source).foldlM Progress.step ⟨[], none, []⟩
  progress.finish

end MiniProgram.Toml
