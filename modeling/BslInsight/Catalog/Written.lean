import BslInsight.Catalog.Description
import BslInsight.Json.Record
import BslInsight.Text.Lines

/-!
# Written catalogs

The members of the catalogs that are always there are written down as signatures, such as
`Имя/Name(Параметр: Тип, Другой?): Тип`.  A line that begins with a hyphen describes what is declared
above it, one that begins with `>` what it returns, and one that begins with `*` the parameter with
which it goes on.  A line that ends with a comma goes on in the next line.  In the text of a class its
own name comes first; a point stands before its properties and a plus sign before its constructors.
-/

namespace BslInsight.Catalog

structure Written where
  signature : List Char
  notes : List (Char × List Char)

namespace Written

def joinLine (line : List Char) : List (List Char) → List (List Char)
  | [] => [line]
  | next :: rest =>
    if line.getLast? = some ',' then (line ++ ' ' :: next) :: rest else line :: next :: rest

/-- The notes that wait for a declaration above them, and the declarations below. -/
def addLine (line : List Char) (below : List (Char × List Char) × List Written) :
    List (Char × List Char) × List Written :=
  match line with
  | mark :: ' ' :: note =>
    if ['-', '>', '*'].contains mark then ((mark, note) :: below.1, below.2)
    else ([], ⟨line, below.1⟩ :: below.2)
  | _ => ([], ⟨line, below.1⟩ :: below.2)

def ofText (text : String) : List Written :=
  let lines := ((splitOn '\n' text.toList).map trim).filter (!·.isEmpty)
  ((lines.foldr joinLine []).foldr addLine ([], [])).2

def cut (separator : Char) (text : List Char) : String × Option String :=
  let front := text.takeWhile (· != separator)
  (String.ofList (trim front),
    if front.length < text.length then some (String.ofList (trim (text.drop (front.length + 1))))
    else none)

def note? (written : Written) (mark : Char) : Option String :=
  (written.notes.lookup mark).map String.ofList

def parameter (written : Written) (text : List Char) : EntryParameter :=
  let (name, type?) := cut ':' (text.filter (· != '?'))
  let notes := written.notes.map fun note => cut ' ' note.2
  { name, type?, description? := (notes.lookup name).join, optional := text.contains '?' }

def toMember (written : Written) : String × MemberRecord :=
  let front := written.signature.takeWhile fun c => c != '(' && c != ':'
  let (arguments, tail) := match written.signature.drop front.length with
    | '(' :: rest => rest.span (· != ')')
    | rest => ([], rest)
  let (key, alternate?) := cut '/' front
  (key, {
    alternate?
    parameters := if arguments.isEmpty then [] else (splitOn ',' arguments).map written.parameter
    returnType? := (cut ':' tail).2
    returnDescription? := written.note? '>'
    description? := written.note? '-' })

end Written

def membersOfText (text : String) : Members :=
  (Written.ofText text).map Written.toMember

def under (segment text : String) (availability : List String := []) : Members :=
  (membersOfText text).map fun (key, record) =>
    (key, { record with segment? := segment, availability })

def gather {α : Type} (parts : List (List (String × α))) : List (String × α) :=
  parts.flatten.foldl (fun records record => Json.insertSorted record.1 record.2 records) []

def marked (mark : Char) (members : List Written) : Members :=
  (members.filter (·.signature.head? = some mark)).map fun written =>
    Written.toMember { written with signature := written.signature.tail }

def classOfText (text : String) (availability : List String := []) : String × ClassRecord :=
  let header := (membersOfText text).headD ("", {})
  let members := (Written.ofText text).tail
  let methods := members.filter fun written => written.signature.head?.all (! ['.', '+'].contains ·)
  (header.1, {
    alternate? := header.2.alternate?
    description? := header.2.description?
    availability
    methods := methods.map Written.toMember
    properties := marked '.' members
    constructors := marked '+' members })

def enumOfText (text : String) : String × EnumRecord :=
  let header := (membersOfText text).headD ("", {})
  (header.1, {
    alternate? := header.2.alternate?
    description? := header.2.description?
    values := (membersOfText text).tail })

end BslInsight.Catalog
