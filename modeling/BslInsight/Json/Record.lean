import BslInsight.Json

/-!
# Records in JSON

A record is an object with named fields, or an array of the fields in order.  Unknown fields of an
object are ignored and known ones must not be repeated.
-/

namespace BslInsight.Json

structure Field where
  name : String
  hasDefault : Bool := false
deriving DecidableEq, Repr

abbrev Record := List (String × Json)

namespace Record

def ofJson? (fields : List Field) (json : Json) (surplus : Bool := false) : Option Record :=
  match json with
  | .obj given =>
    let known := given.filter fun (name, _) => fields.any (·.name == name)
    if (known.map Prod.fst).Nodup then some known else none
  | .arr items =>
    if (surplus || items.length ≤ fields.length) &&
        (fields.drop items.length).all (·.hasDefault) then
      some ((fields.map Field.name).zip items)
    else none
  | _ => none

def required {α : Type} (record : Record) (name : String) (read : Json → Option α) : Option α :=
  (record.lookup name).bind read

def withDefault {α : Type} (record : Record) (name : String) (default : α)
    (read : Json → Option α) : Option α :=
  match record.lookup name with
  | none => some default
  | some json => read json

def optional {α : Type} (record : Record) (name : String) (read : Json → Option α) :
    Option (Option α) :=
  match record.lookup name with
  | none | some .null => some none
  | some json => (read json).map some

end Record

def list? {α : Type} (read : Json → Option α) (json : Json) : Option (List α) :=
  json.arr?.bind fun items => items.mapM read

def insertSorted {α : Type} (key : String) (value : α) : List (String × α) → List (String × α)
  | [] => [(key, value)]
  | (other, old) :: rest =>
    match compare key other with
    | .lt => (key, value) :: (other, old) :: rest
    | .eq => (key, value) :: rest
    | .gt => (other, old) :: insertSorted key value rest

def map? {α : Type} (read : Json → Option α) (json : Json) : Option (List (String × α)) := do
  let fields ← json.obj?
  let entries ← fields.mapM fun (name, value) => (read value).map (name, ·)
  return entries.foldl (fun sorted (name, value) => insertSorted name value sorted) []

end BslInsight.Json
