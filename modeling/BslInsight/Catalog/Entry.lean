import BslInsight.Json
import BslInsight.Text.LowerCase

/-!
# Catalog entries

Global methods and properties, classes with their members and constructors, and enumerations.  Every
entry has a Russian name and mostly an English one.
-/

namespace BslInsight

inductive Locale where
  | ru
  | en
deriving DecidableEq, Repr

namespace Catalog

inductive Section where
  | globalContext | classes | systemEnums
deriving DecidableEq, Repr

def Section.tag : Section → String
  | .globalContext => "GlobalContext"
  | .classes => "Classes"
  | .systemEnums => "SystemEnums"

inductive EntryKind where
  | method | property | «class» | enum | enumValue | constructor
deriving DecidableEq, Repr

namespace EntryKind

def isCallable : EntryKind → Bool
  | .method | .constructor => true
  | _ => false

def isType : EntryKind → Bool
  | .«class» | .enum => true
  | _ => false

def label : EntryKind → String
  | .method => "method"
  | .property => "property"
  | .«class» => "class"
  | .enum => "enum"
  | .enumValue => "enum value"
  | .constructor => "constructor"

def tag : EntryKind → String
  | .method => "Method"
  | .property => "Property"
  | .«class» => "Class"
  | .enum => "Enum"
  | .enumValue => "EnumValue"
  | .constructor => "Constructor"

end EntryKind

structure EntryParameter where
  name : String
  type? : Option String := none
  description? : Option String := none
  optional : Bool := false
deriving DecidableEq, Repr

namespace EntryParameter

def label (parameter : EntryParameter) : String :=
  if parameter.optional then parameter.name ++ "?" else parameter.name

def note? (parameter : EntryParameter) : Option String :=
  if parameter.type?.isNone && parameter.description?.isNone then none
  else
    let type := match parameter.type? with
      | some type => s!" ({type})"
      | none => ""
    let description := match parameter.description? with
      | some description => s!": {description}"
      | none => ""
    some s!"\n- `{parameter.name}`{type}{description}"

def toJson (parameter : EntryParameter) : Json :=
  let optionals := [("type", parameter.type?), ("description", parameter.description?)]
  .obj ([("name", Json.str parameter.name)] ++
    optionals.filterMap (fun (name, value?) => value?.map fun value => (name, Json.str value)) ++
    [("optional", Json.bool parameter.optional)])

end EntryParameter

structure Entry where
  name : String
  alternate? : Option String
  «section» : Section
  kind : EntryKind
  owner? : Option String := none
  parameters : List EntryParameter := []
  returnDescription? : Option String := none
  returnType? : Option String := none
  description? : Option String := none
  availability : List String := []
  segment? : Option String := none
deriving DecidableEq, Repr

namespace Entry

def names (entry : Entry) : List String :=
  entry.name :: entry.alternate?.toList

def matchesName (entry : Entry) (name : String) : Bool :=
  entry.names.any (sameName · name)

def displayName (entry : Entry) : Locale → String
  | .ru => entry.name
  | .en => entry.alternate?.getD entry.name

def signatureLabel (entry : Entry) (locale : Locale) : String :=
  let name := entry.displayName locale
  if entry.kind.isCallable then
    name ++ "(" ++ String.intercalate ", " (entry.parameters.map EntryParameter.label) ++ ")"
  else name

def parameterNotes (entry : Entry) : String :=
  match entry.parameters.filterMap EntryParameter.note? with
  | [] => ""
  | notes => "\n\n**Параметры:**" ++ String.join notes

def documentation (entry : Entry) (locale : Locale) : String :=
  let description := match entry.description? with
    | some description => "\n\n" ++ description
    | none => ""
  let returns := match entry.returnDescription?.or entry.returnType? with
    | some returns => "\n\n**Возвращаемое значение:** " ++ returns
    | none => ""
  let availability := match entry.availability with
    | [] => ""
    | contexts => "\n\n_Доступность: " ++ String.intercalate ", " contexts ++ "_"
  "```bsl\n" ++ entry.signatureLabel locale ++ "\n```" ++ description ++ entry.parameterNotes ++
    returns ++ availability

def toJson (entry : Entry) : Json :=
  .obj [("name", .str entry.name), ("name_alternate", .ofOption entry.alternate?),
    ("section", .str entry.section.tag), ("kind", .str entry.kind.tag),
    ("owner", .ofOption entry.owner?),
    ("parameters", .arr (entry.parameters.map EntryParameter.toJson)),
    ("return_description", .ofOption entry.returnDescription?),
    ("return_type", .ofOption entry.returnType?), ("description", .ofOption entry.description?),
    ("availability", .ofStrings entry.availability), ("segment", .ofOption entry.segment?)]

end Entry

end Catalog

end BslInsight
