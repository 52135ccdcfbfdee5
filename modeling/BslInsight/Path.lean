import BslInsight.Text.LowerCase
import BslInsight.Text.Lines
import BslInsight.Text.Utf8

/-!
# Paths

A path keeps the bytes it was written with, which need not be a text.  Comparisons go by components:
empty segments and dots do not count, except for a dot at the very beginning.
-/

namespace BslInsight

abbrev FileName := List UInt8

structure Path where
  bytes : List UInt8
deriving DecidableEq, Repr, Inhabited

def slashByte : UInt8 :=
  0x2f

def dotByte : UInt8 :=
  0x2e

inductive Component where
  | root
  | current
  | parent
  | name (value : FileName)
deriving DecidableEq, Repr

namespace Component

def rank : Component → Nat
  | .root => 0
  | .current => 1
  | .parent => 2
  | .name _ => 3

def compare : Component → Component → Ordering
  | .name a, .name b => Ord.compare a b
  | a, b => Ord.compare a.rank b.rank

def bytes : Component → List UInt8
  | .root => [slashByte]
  | .current => [dotByte]
  | .parent => [dotByte, dotByte]
  | .name value => value

/-- The component of a segment between slashes; `first` says that nothing stands before it. -/
def ofSegment? (first : Bool) (segment : List UInt8) : Option Component :=
  if segment = [] then none
  else if segment = [dotByte] then (if first then some .current else none)
  else if segment = [dotByte, dotByte] then some .parent
  else some (.name segment)

end Component

namespace Path

def ofText (text : String) : Path :=
  ⟨Utf8.encode text⟩

def text (path : Path) : String :=
  String.ofList (Utf8.decodeLossy path.bytes)

def ofSegments : List (List UInt8) → List Component
  | [] => []
  | first :: rest =>
    (Component.ofSegment? true first).toList ++ rest.filterMap (Component.ofSegment? false)

def isAbsolute (path : Path) : Bool :=
  path.bytes.head? = some slashByte

def components (path : Path) : List Component :=
  let segments := splitOn slashByte path.bytes
  if path.isAbsolute then .root :: segments.filterMap (Component.ofSegment? false)
  else ofSegments segments

def same (a b : Path) : Bool :=
  a.components == b.components

def compareComponents : List Component → List Component → Ordering
  | [], [] => .eq
  | [], _ :: _ => .lt
  | _ :: _, [] => .gt
  | a :: as, b :: bs => (a.compare b).then (compareComponents as bs)

def compare (a b : Path) : Ordering :=
  compareComponents a.components b.components

def ofComponents : List Component → Path
  | .root :: rest => ⟨slashByte :: joinWith [slashByte] (rest.map Component.bytes)⟩
  | components => ⟨joinWith [slashByte] (components.map Component.bytes)⟩

/-- One component of lexical normalisation: a parent component removes what stands before it, and
stays when there is nothing to remove. -/
def normalizeStep (done : List Component) : Component → List Component
  | .current => done
  | .parent =>
    match done.getLast? with
    | none | some .root => done ++ [.parent]
    | some _ => done.dropLast
  | component => done ++ [component]

def normalizeComponents (components : List Component) : List Component :=
  components.foldl normalizeStep []

def normalize (path : Path) : Path :=
  ofComponents (normalizeComponents path.components)

def startsWith (path root : Path) : Bool :=
  root.components.isPrefixOf path.components

def relativeTo? (path root : Path) : Option Path :=
  if path.startsWith root then
    some (ofComponents (path.components.drop root.components.length))
  else none

def fileName? (path : Path) : Option String :=
  match path.components.getLast? with
  | some (.name value) => some (String.ofList (Utf8.decodeLossy value))
  | _ => none

def splitName (name : String) : String × Option String :=
  let chars := name.toList
  let tail := (chars.reverse.takeWhile (· != '.')).reverse
  let head := chars.take (chars.length - tail.length - 1)
  if tail.length < chars.length ∧ head ≠ [] then (String.ofList head, some (String.ofList tail))
  else (name, none)

def stem? (path : Path) : Option String :=
  path.fileName?.map fun name => (splitName name).1

def extension? (path : Path) : Option String :=
  path.fileName?.bind fun name => (splitName name).2

/-- Where each component ends if the first segment begins at `offset`. -/
def componentEnds (offset : Nat) (first : Bool) : List (List UInt8) → List Nat
  | [] => []
  | segment :: rest =>
    let stop := offset + segment.length
    let others := componentEnds (stop + 1) false rest
    if (Component.ofSegment? first segment).isSome then stop :: others else others

def parent? (path : Path) : Option Path :=
  match (componentEnds 0 (!path.isAbsolute) (splitOn slashByte path.bytes)).reverse with
  | [] => none
  | [_] => some ⟨if path.isAbsolute then [slashByte] else []⟩
  | _ :: stop :: _ => some ⟨path.bytes.take stop⟩

def join (base path : Path) : Path :=
  if path.isAbsolute then path
  else if base.bytes = [] then path
  else if base.bytes.getLast? = some slashByte then ⟨base.bytes ++ path.bytes⟩
  else ⟨base.bytes ++ slashByte :: path.bytes⟩

end Path

inductive Dialect where
  | bsl
  | oneScript
deriving DecidableEq, Repr

namespace Dialect

def label : Dialect → String
  | .bsl => "bsl"
  | .oneScript => "oscript"

def ofPath? (path : Path) : Option Dialect :=
  match path.extension?.map lower with
  | some "bsl" => some .bsl
  | some "os" => some .oneScript
  | _ => none

end Dialect

def sameAscii (a b : String) : Bool :=
  a.toList.map Char.toLower == b.toList.map Char.toLower

def genericModuleStems : List String :=
  ["module", "managermodule", "objectmodule"]

/-- The name by which other modules address the module in a file: the stem of the file name, or
for a generic file name in an `Ext` directory the directory that holds it. -/
def moduleName? (path : Path) : Option String := do
  let stem ← path.stem?
  if genericModuleStems.any (sameAscii stem) then
    let directory ← path.parent?
    if sameAscii (← directory.fileName?) "ext" then
      return ← (← directory.parent?).fileName?
    return stem
  return stem

structure FileLocation where
  file : Path
  line : Nat
  column : Nat
deriving DecidableEq, Repr

namespace FileLocation

def label (location : FileLocation) : String :=
  s!"{location.file.text}:{location.line + 1}:{location.column + 1}"

def compare (a b : FileLocation) : Ordering :=
  (a.file.compare b.file).then ((Ord.compare a.line b.line).then (Ord.compare a.column b.column))

end FileLocation

end BslInsight
