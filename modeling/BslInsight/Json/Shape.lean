import BslInsight.Json

/-!
# Shapes of JSON values

A shape says what a value must look like to be read.  A record is an object with named fields, or an
array of the fields in order.
-/

namespace BslInsight.Json

inductive Presence where
  | required
  | optional
  /-- The field may be missing in an object, and at the end of an array. -/
  | defaulted
deriving DecidableEq, Repr

inductive Shape where
  | any
  | bool
  | number
  | int (low high : Int)
  | text (test : String → Bool)
  /-- One of some names, as a text or as the only field of an object, with the value `null`. -/
  | oneOf (names : List String)
  | nullable (shape : Shape)
  | list (item : Shape)
  | items (shapes : List Shape)
  /-- An object whose names pass a test and whose values have a shape. -/
  | map (test : String → Bool) (value : Shape)
  | record (fields : List (String × Presence × Shape))
  /-- A record that is always an object, and whose further fields have the shape `others`. -/
  | openRecord (fields : List (String × Presence × Shape)) (others : Shape)
  | either (shapes : List Shape)
  /-- A record that depends on a name, which is a field of the object or the first item of the
  array. -/
  | tagged (field : String) (cases : List (String × Shape))

namespace Shape

mutual

def fits : Shape → Json → Bool
  | .any, _ => true
  | .bool, .bool _ => true
  | .number, .int _ => true
  | .number, .float _ => true
  | .int low high, .int value => low ≤ value && value ≤ high
  | .text test, .str value => test value
  | .oneOf names, .str value => names.contains value
  | .oneOf names, .obj [(value, .null)] => names.contains value
  | .nullable shape, json => json matches .null || shape.fits json
  | .list item, .arr values => values.all fun json => item.fits json
  | .items shapes, .arr values => itemsFit shapes values
  | .map test value, .obj fields => fields.all fun (name, json) => test name && value.fits json
  | .record fields, .obj given => fieldsFit fields given
  | .record fields, .arr values => arrayFits fields values
  | .openRecord fields others, .obj given =>
    fieldsFit fields given &&
      given.all fun (name, json) => fields.any (·.1 == name) || others.fits json
  | .either shapes, json => anyFits shapes json
  | .tagged field cases, .obj given =>
    match given.lookup field with
    | some (.str name) => caseFits cases name (.obj given)
    | _ => false
  | .tagged _ cases, .arr (.str name :: values) => caseFits cases name (.arr values)
  | _, _ => false

def itemsFit : List Shape → List Json → Bool
  | [], [] => true
  | shape :: shapes, json :: values => shape.fits json && itemsFit shapes values
  | _, _ => false

def fieldsFit : List (String × Presence × Shape) → List (String × Json) → Bool
  | [], _ => true
  | (name, presence, shape) :: rest, given =>
    (match given.lookup name with
      | some json => shape.fits json
      | none => presence != .required) &&
      fieldsFit rest given

def arrayFits : List (String × Presence × Shape) → List Json → Bool
  | [], values => values.isEmpty
  | (_, presence, shape) :: rest, values =>
    match values with
    | json :: values => shape.fits json && arrayFits rest values
    | [] => presence == .defaulted && arrayFits rest []

def anyFits : List Shape → Json → Bool
  | [], _ => false
  | shape :: shapes, json => shape.fits json || anyFits shapes json

def caseFits : List (String × Shape) → String → Json → Bool
  | [], _, _ => false
  | (other, shape) :: cases, name, json =>
    if other == name then shape.fits json else caseFits cases name json

end

def string : Shape :=
  .text fun _ => true

def int32 : Shape :=
  .int (-0x80000000) 0x7fffffff

def count : Shape :=
  .int 0 0xffffffff

def field (name : String) (shape : Shape) : String × Presence × Shape :=
  (name, .required, shape)

def option (name : String) (shape : Shape) : String × Presence × Shape :=
  (name, .optional, .nullable shape)

def options (names : List String) (shape : Shape) : List (String × Presence × Shape) :=
  names.map (option · shape)

end Shape

end BslInsight.Json
