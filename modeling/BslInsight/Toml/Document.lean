import BslInsight.Json

/-!
# Tables of a TOML document

A table is opened by a header, implied by the header of a table inside it, or made by a dotted key.
Each way restricts what may be added to it later.
-/

namespace BslInsight.Toml

inductive Origin where
  | header | implied | dotted
deriving DecidableEq, Repr

/-- What stands under a key: a value that is complete, a table, or an array of tables of which the
last may grow. -/
inductive Node where
  | value (json : Json)
  | table (origin : Origin) (fields : List (String × Node))
  | tables (done : List (List (String × Node))) (last : List (String × Node))

abbrev Fields := List (String × Node)

def Fields.set (fields : Fields) (key : String) (node : Node) : Fields :=
  if fields.any (·.1 == key) then
    fields.map fun (other, old) => if other == key then (key, node) else (other, old)
  else fields ++ [(key, node)]

/-- Changes the table at the end of a path.  Tables that are missing on the way are made; values
on the way, and with a dotted key also tables with a header, cannot be entered. -/
def changeAt (dotted : Bool) (change : Origin → Fields → Option (Origin × Fields)) :
    List String → Origin → Fields → Option (Origin × Fields)
  | [], origin, fields => change origin fields
  | key :: path, origin, fields => do
    let node ← match fields.lookup key with
      | none => do
        let (inner, nodes) ← changeAt dotted change path (if dotted then .dotted else .implied) []
        some (.table inner nodes)
      | some (.value _) => none
      | some (.table inner nodes) => do
        if dotted ∧ inner = .header then none
        else
          let (inner, nodes) ← changeAt dotted change path inner nodes
          some (.table inner nodes)
      | some (.tables done last) => do
        let (_, last) ← changeAt dotted change path .header last
        some (.tables done last)
    some (origin, fields.set key node)

/-- Adds a value under a key that is not yet used.  With a dotted key the table must be one that
dotted keys made. -/
def addValue (hasPath : Bool) (key : String) (json : Json) (origin : Origin) (fields : Fields) :
    Option (Origin × Fields) :=
  if (origin = .dotted) ↔ hasPath then
    match fields.lookup key with
    | none => some (origin, fields.set key (.value json))
    | some _ => none
  else none

def insertValue (key : List String) (json : Json) (origin : Origin) (fields : Fields) :
    Option (Origin × Fields) :=
  match key.getLast? with
  | none => none
  | some last => changeAt true (addValue (1 < key.length) last json) key.dropLast origin fields

/-- Opens a table under a key: a new one, or one that was only implied and becomes the last. -/
def openTable (key : String) (origin : Origin) (fields : Fields) : Option (Origin × Fields) :=
  match fields.lookup key with
  | none => some (origin, fields.set key (.table .header []))
  | some (.table .implied nodes) =>
    some (origin, fields.filter (·.1 != key) ++ [(key, .table .header nodes)])
  | some _ => none

def openItem (key : String) (origin : Origin) (fields : Fields) : Option (Origin × Fields) :=
  match fields.lookup key with
  | none => some (origin, fields.set key (.tables [] []))
  | some (.tables done last) => some (origin, fields.set key (.tables (done ++ [last]) []))
  | some _ => none

structure Document where
  fields : Fields := []
  current : List String := []

namespace Document

def addKeyValue (document : Document) (key : List String) (json : Json) : Option Document := do
  let (_, fields) ← changeAt false (insertValue key json) document.current .header document.fields
  return { document with fields }

def addHeader (document : Document) (isItem : Bool) (path : List String) : Option Document := do
  let key ← path.getLast?
  let change := if isItem then openItem key else openTable key
  let (_, fields) ← changeAt false change path.dropLast .header document.fields
  return ⟨fields, path⟩

end Document

mutual

def Node.toJson : Node → Json
  | .value json => json
  | .table _ fields => .obj (fieldsToJson fields)
  | .tables done last => .arr (itemsToJson done ++ [.obj (fieldsToJson last)])

def fieldsToJson : List (String × Node) → List (String × Json)
  | [] => []
  | (key, node) :: rest => (key, node.toJson) :: fieldsToJson rest

def itemsToJson : List (List (String × Node)) → List Json
  | [] => []
  | item :: rest => .obj (fieldsToJson item) :: itemsToJson rest

end

def Node.isEmpty : Node → Bool
  | .value (.arr []) | .value (.obj []) | .table _ [] => true
  | _ => false

/-- The name that a node gives where one of several names is wanted: the text itself, or the key of
an empty value, which inside a line is the only one and else the first. -/
def Node.tag? : Node → Option String
  | .value (.str name) => some name
  | .value (.obj [(name, json)]) => if (Node.value json).isEmpty then some name else none
  | .table _ ((name, node) :: _) => if node.isEmpty then some name else none
  | _ => none

end BslInsight.Toml
