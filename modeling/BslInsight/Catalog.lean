import BslInsight.Catalog.Description
import BslInsight.Path
import BslInsight.Text.Occurrence

/-!
# The catalog of a dialect

Entries are found by either of their names, regardless of letter case, through an index.  Of
entries that share a name the first is found.
-/

namespace BslInsight

namespace Catalog

abbrev NameIndex := List (String × Nat)

namespace NameIndex

def add (index : NameIndex) (place : Nat) (name : String) : NameIndex :=
  if (index.lookup (lower name)).isSome then index else index ++ [(lower name, place)]

/-- The index of a list in which each item has the given names.  `place` is the place of the first
item. -/
def ofNames (index : NameIndex) (place : Nat) : List (List String) → NameIndex
  | [] => index
  | names :: rest => ofNames (names.foldl (add · place) index) (place + 1) rest

def find? {α : Type} (index : NameIndex) (items : List α) (name : String) : Option α :=
  (index.lookup (lower name)).bind fun place => items[place]?

end NameIndex

structure CatalogType where
  entry : Entry
  members : List Entry
  constructors : List Entry
  memberIndex : NameIndex
deriving DecidableEq, Repr

namespace CatalogType

def ofEntries (entry : Entry) (members constructors : List Entry) : CatalogType :=
  ⟨entry, members, constructors, NameIndex.ofNames [] 0 (members.map Entry.names)⟩

def member? (type : CatalogType) (name : String) : Option Entry :=
  type.memberIndex.find? type.members name

end CatalogType

def ClassRecord.toType (key : String) (record : ClassRecord) : CatalogType :=
  .ofEntries (record.toEntry key) (record.memberEntries key) (record.constructorEntries key)

def EnumRecord.toType (key : String) (record : EnumRecord) : CatalogType :=
  .ofEntries (record.toEntry key) (record.memberEntries key) []

end Catalog

open Catalog

structure Catalog where
  dialect : Dialect
  version : Nat
  globals : List Entry
  types : List CatalogType
  globalIndex : NameIndex
  typeIndex : NameIndex
deriving DecidableEq, Repr

namespace Catalog

def ofDescription (dialect : Dialect) (description : Description) : Catalog :=
  let globals := description.methods.entries .globalContext .method none ++
    description.properties.entries .globalContext .property none
  let types := description.classes.map (fun (key, record) => record.toType key) ++
    description.enums.map (fun (key, record) => record.toType key)
  { dialect, version := description.version, globals, types
    globalIndex := NameIndex.ofNames [] 0 (globals.map Entry.names)
    typeIndex := NameIndex.ofNames [] 0 (types.map (·.entry.names)) }

def classes (catalog : Catalog) : List CatalogType :=
  catalog.types.filter (·.entry.kind == .«class»)

def global? (catalog : Catalog) (name : String) : Option Entry :=
  catalog.globalIndex.find? catalog.globals name

def type? (catalog : Catalog) (name : String) : Option CatalogType :=
  catalog.typeIndex.find? catalog.types name

def class? (catalog : Catalog) (name : String) : Option CatalogType :=
  (catalog.type? name).filter (·.entry.kind == .«class»)

def member? (catalog : Catalog) (type member : String) : Option Entry :=
  (catalog.type? type).bind (·.member? member)

def lookup? (catalog : Catalog) (name : String) : Option Entry :=
  catalog.global? name <|> (catalog.type? name).map (·.entry)

structure HelperItem where
  label : String
  path : String
  entry : Entry
deriving DecidableEq, Repr

def HelperItem.toJson (item : HelperItem) : Json :=
  .obj [("label", .str item.label), ("path", .str item.path), ("entry", item.entry.toJson)]

def helperRoot : Dialect → String
  | .bsl => "1С"
  | .oneScript => "OneScript"

def globalItem (dialect : Dialect) (locale : Locale) (entry : Entry) : HelperItem :=
  let segment := entry.segment?.getD (if entry.kind = .property then "Свойства" else "Функции")
  ⟨entry.displayName locale, s!"{helperRoot dialect}/Глобальный контекст/{segment}", entry⟩

def typeItems (dialect : Dialect) (locale : Locale) (type : CatalogType) : List HelperItem :=
  let name := type.entry.displayName locale
  let branch := if type.entry.kind = .enum then "Системные перечисления" else "Классы"
  let path := s!"{helperRoot dialect}/{branch}/{type.entry.name}"
  ⟨name, path, type.entry⟩ ::
    type.members.map fun member => ⟨s!"{name}.{member.displayName locale}", path, member⟩

def allItems (catalog : Catalog) (locale : Locale) : List HelperItem :=
  catalog.globals.map (globalItem catalog.dialect locale) ++
    catalog.types.flatMap (typeItems catalog.dialect locale)

def helperItems (catalog : Catalog) (filter : String) (locale : Locale) : List HelperItem :=
  (catalog.allItems locale).filter fun item => occursIn (lower filter) (lower item.label)

end Catalog

end BslInsight
