import BslInsight.Error
import BslInsight.ModuleTable

/-!
# Files and directories

A disk is a tree of directories with files as leaves.  Paths are resolved segment by segment, and
every segment but the last must lead into a directory.
-/

namespace BslInsight

/-- A module table as the table cache stores it, with the versions of the format and of the program
that stored it. -/
structure StoredTable where
  formatVersion : Nat
  programVersion : String
  table : ModuleTable

/-- What a file holds: bytes, or an entry of the table cache.  Some files exist but cannot be
read. -/
inductive FileContent where
  | bytes (data : List UInt8)
  | stored (compressed : Bool) (entry : StoredTable)
  | unreadable

def FileContent.size : FileContent → Nat
  | .bytes data => data.length
  | .stored .. | .unreadable => 0

inductive FileTree where
  | file (content : FileContent)
  | directory (entries : List (FileName × FileTree))

namespace FileTree

def isDirectory : FileTree → Bool
  | .directory _ => true
  | .file _ => false

def get? : List FileName → FileTree → Option FileTree
  | [], tree => some tree
  | name :: names, .directory entries => (entries.lookup name).bind (get? names)
  | _ :: _, .file _ => none

def setEntry (name : FileName) (tree : FileTree) (entries : List (FileName × FileTree)) :
    List (FileName × FileTree) :=
  if entries.any (·.1 == name) then
    entries.map fun (other, old) => if other == name then (name, tree) else (other, old)
  else entries ++ [(name, tree)]

def put? (node : FileTree) : List FileName → FileTree → Option FileTree
  | [], _ => some node
  | _ :: _, .file _ => none
  | name :: names, .directory entries =>
    match entries.lookup name with
    | some child => (put? node names child).map fun child => .directory (setEntry name child entries)
    | none => if names.isEmpty then some (.directory (setEntry name node entries)) else none

def erase : List FileName → FileTree → FileTree
  | [], tree => tree
  | _ :: _, .file content => .file content
  | [name], .directory entries => .directory (entries.filter (·.1 != name))
  | name :: names, .directory entries =>
    match entries.lookup name with
    | some child => .directory (setEntry name (erase names child) entries)
    | none => .directory entries

mutual

/-- The files of a tree with their locations.  Directories whose name satisfies `skip` are not
entered; the name of the tree itself does not count. -/
def files (skip : FileName → Bool) : FileTree → List (List FileName × FileContent)
  | .file content => [([], content)]
  | .directory entries => entryFiles skip entries

def entryFiles (skip : FileName → Bool) :
    List (FileName × FileTree) → List (List FileName × FileContent)
  | [] => []
  | (name, tree) :: rest =>
    (if tree.isDirectory && skip name then []
      else (files skip tree).map fun (names, content) => (name :: names, content)) ++
      entryFiles skip rest

end

end FileTree

structure Disk where
  root : FileTree := .directory []
  workingDir : List FileName := []

namespace Disk

def step (root : FileTree) (location : List FileName) (segment : List UInt8) :
    Except IoFailure (List FileName) :=
  match root.get? location with
  | none => .error .notFound
  | some (.file _) => .error .notDirectory
  | some (.directory _) =>
    if segment = [] ∨ segment = [dotByte] then .ok location
    else if segment = [dotByte, dotByte] then .ok location.dropLast
    else .ok (location ++ [segment])

def start (disk : Disk) (path : Path) : List FileName :=
  if path.isAbsolute then [] else disk.workingDir

/-- The location of a path.  Nothing needs to stand there, but all before it must be directories. -/
def locate (disk : Disk) (path : Path) : Except IoFailure (List FileName) :=
  if path.bytes = [] then .error .notFound
  else (splitOn slashByte path.bytes).foldlM (step disk.root) (disk.start path)

def lookup (disk : Disk) (path : Path) : Except IoFailure FileTree := do
  match disk.root.get? (← disk.locate path) with
  | some tree => .ok tree
  | none => .error .notFound

def has (disk : Disk) (path : Path) : Bool :=
  match disk.lookup path with
  | .ok _ => true
  | .error _ => false

def isDirectory (disk : Disk) (path : Path) : Bool :=
  match disk.lookup path with
  | .ok tree => tree.isDirectory
  | .error _ => false

def isFile (disk : Disk) (path : Path) : Bool :=
  match disk.lookup path with
  | .ok tree => !tree.isDirectory
  | .error _ => false

def readBytes (disk : Disk) (path : Path) : Except IoFailure (List UInt8) := do
  match ← disk.lookup path with
  | .file (.bytes data) => .ok data
  | .file (.stored ..) => .ok []
  | .file .unreadable => .error .inputOutput
  | .directory _ => .error .isDirectory

def write (disk : Disk) (path : Path) (content : FileContent) : Except IoFailure Disk := do
  let location ← disk.locate path
  match disk.root.get? location with
  | some (.directory _) => .error .isDirectory
  | some (.file .unreadable) => .error .inputOutput
  | _ =>
    match FileTree.put? (.file content) location disk.root with
    | some root => .ok { disk with root }
    | none => .error .notFound

def removeFile (disk : Disk) (path : Path) : Except IoFailure Disk := do
  match ← disk.lookup path with
  | .directory _ => .error .isDirectory
  | .file _ => .ok { disk with root := disk.root.erase (← disk.locate path) }

def removeDirectory (disk : Disk) (path : Path) : Except IoFailure Disk := do
  match ← disk.lookup path with
  | .directory _ => .ok { disk with root := disk.root.erase (← disk.locate path) }
  | .file _ => .error .notDirectory

/-- Follows one segment and makes the directory to which it leads if there is nothing. -/
def makeStep (state : FileTree × List FileName) (segment : List UInt8) :
    Except IoFailure (FileTree × List FileName) := do
  let (root, location) := state
  let location ← step root location segment
  match root.get? location with
  | some (.directory _) => .ok (root, location)
  | some (.file _) => .error .exists
  | none =>
    match FileTree.put? (.directory []) location root with
    | some root => .ok (root, location)
    | none => .error .notFound

def makeDirectories (disk : Disk) (path : Path) : Except IoFailure Disk := do
  if path.bytes = [] then .ok disk
  else
    let (root, _) ← (splitOn slashByte path.bytes).foldlM makeStep (disk.root, disk.start path)
    .ok { disk with root }

def names (disk : Disk) (path : Path) : Except IoFailure (List FileName) := do
  match ← disk.lookup path with
  | .directory entries => .ok (entries.map Prod.fst)
  | .file _ => .error .notDirectory

end Disk

end BslInsight
