/-!
# JSON values

Fields keep the order in which they were written, repeated names included.  Numbers without fraction
and exponent that fit into 64 bits are integers; all others keep their text.
-/

namespace BslInsight

inductive Json where
  | null
  | bool (value : Bool)
  | int (value : Int)
  | float (text : String)
  | str (value : String)
  /-- A string literal with an unpaired surrogate, or an object that has such a name of a field.  It
  may be skipped but not read. -/
  | unreadable
  | arr (items : List Json)
  | obj (fields : List (String × Json))
deriving Repr, Inhabited

namespace Json

def str? : Json → Option String
  | .str value => some value
  | _ => none

def bool? : Json → Option Bool
  | .bool value => some value
  | _ => none

def nat? (bound : Nat) : Json → Option Nat
  | .int value => if 0 ≤ value ∧ value.toNat < bound then some value.toNat else none
  | _ => none

def arr? : Json → Option (List Json)
  | .arr items => some items
  | _ => none

def obj? : Json → Option (List (String × Json))
  | .obj fields => some fields
  | _ => none

def get? (name : String) : Json → Option Json
  | .obj fields => fields.reverse.lookup name
  | _ => none

def strings? (json : Json) : Option (List String) :=
  json.arr?.bind fun items => items.mapM str?

def ofOption : Option String → Json
  | some value => .str value
  | none => .null

def orNull {α : Type} (write : α → Json) : Option α → Json
  | some value => write value
  | none => .null

def ofPresent (fields : List (String × Option Json)) : Json :=
  .obj (fields.filterMap fun (name, value?) => value?.map (name, ·))

def ofNat (n : Nat) : Json :=
  .int (Int.ofNat n)

def ofStrings (values : List String) : Json :=
  .arr (values.map .str)

end Json

end BslInsight
