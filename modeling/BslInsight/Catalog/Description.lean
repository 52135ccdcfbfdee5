import BslInsight.Catalog.Entry

/-!
# Catalog descriptions

The data from which a catalog is made: sections of records under keys.  A record without a name of
its own is named by its key.
-/

namespace BslInsight.Catalog

structure MemberRecord where
  name? : Option String := none
  alternate? : Option String := none
  parameters : List EntryParameter := []
  returnDescription? : Option String := none
  returnType? : Option String := none
  availability : List String := []
  description? : Option String := none
  segment? : Option String := none
deriving DecidableEq, Repr

abbrev Members := List (String × MemberRecord)

/-! The headings under which the methods of both libraries stand. -/

namespace Segment

def strings := "Функции работы со значениями типа Строка"
def dates := "Функции работы со значениями типа Дата"
def numbers := "Функции работы со значениями типа Число"
def conversions := "Функции преобразования значений"
def formatting := "Функции форматирования"
def other := "Прочие функции"
def files := "Процедуры и функции работы с файлами"
def environment := "Процедуры и функции работы с окружением"
def errors := "Процедуры и функции работы с ошибками"
def dialogs := "Процедуры и функции интерактивной работы"
def properties := "Свойства"

end Segment

structure ClassRecord where
  name? : Option String := none
  alternate? : Option String := none
  description? : Option String := none
  availability : List String := []
  methods : Members := []
  properties : Members := []
  constructors : Members := []
deriving DecidableEq, Repr

structure EnumRecord where
  name? : Option String := none
  alternate? : Option String := none
  description? : Option String := none
  values : Members := []
deriving DecidableEq, Repr

structure Description where
  version : Nat
  methods : Members := []
  properties : Members := []
  classes : List (String × ClassRecord) := []
  enums : List (String × EnumRecord) := []
deriving DecidableEq, Repr

def alternateName? (name? : Option String) : Option String :=
  name?.filter (· ≠ "")

def MemberRecord.toEntry (section_ : Section) (kind : EntryKind) (owner? : Option String)
    (key : String) (record : MemberRecord) : Entry where
  name := record.name?.getD key
  alternate? := alternateName? record.alternate?
  «section» := section_
  kind := kind
  owner? := owner?
  parameters := record.parameters
  returnDescription? := record.returnDescription?
  returnType? := record.returnType?
  description? := record.description?
  availability := record.availability
  segment? := record.segment?

def Members.entries (members : Members) (section_ : Section) (kind : EntryKind)
    (owner? : Option String) : List Entry :=
  members.map fun (key, record) => record.toEntry section_ kind owner? key

namespace ClassRecord

def toEntry (key : String) (record : ClassRecord) : Entry where
  name := record.name?.getD key
  alternate? := alternateName? record.alternate?
  «section» := .classes
  kind := .«class»
  description? := record.description?
  availability := record.availability

def memberEntries (key : String) (record : ClassRecord) : List Entry :=
  let owner := (record.toEntry key).name
  record.methods.entries .classes .method owner ++ record.properties.entries .classes .property owner

/-- The entries of its constructors.  A constructor is called by the name of its class and gives a
value of it; without a description it is described by its key. -/
def constructorEntries (key : String) (record : ClassRecord) : List Entry :=
  let header := record.toEntry key
  record.constructors.map fun (name, member) =>
    let entry := member.toEntry .classes .constructor header.name name
    { entry with
      name := header.name
      alternate? := header.alternate?
      returnType? := header.name
      description? := entry.description?.getD name }

end ClassRecord

namespace EnumRecord

def toEntry (key : String) (record : EnumRecord) : Entry where
  name := record.name?.getD key
  alternate? := alternateName? record.alternate?
  «section» := .systemEnums
  kind := .enum
  description? := record.description?

def memberEntries (key : String) (record : EnumRecord) : List Entry :=
  record.values.entries .systemEnums .enumValue (record.toEntry key).name

end EnumRecord

end BslInsight.Catalog
