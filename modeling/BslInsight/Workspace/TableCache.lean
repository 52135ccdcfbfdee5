import BslInsight.Disk
import BslInsight.Settings

/-!
# The cache of module tables on disk

A table is stored in a file of its own.  It is given back only by the version that stored it, for the
same path and the same text.
-/

namespace BslInsight

def programVersion : String :=
  "0.4.0"

/-- A cache in a directory.  `entryName` gives the file name for the path of a module; two paths
may have the same. -/
structure TableCache where
  dir : Path
  compression : Bool
  entryName : Path → String

namespace TableCache

/-- The version of the format of entries.  It changes with the shape of module tables. -/
def formatVersion : Nat := 2

def hexByte (byte : UInt8) : List Char :=
  [Json.hexChar (byte.toNat / 16), Json.hexChar (byte.toNat % 16)]

/-- The file name for the path of a module, which depends on the components of the path only. -/
def componentName (path : Path) : String :=
  let key := (Path.ofComponents path.components).bytes
  "table_" ++ String.ofList (key.flatMap hexByte) ++ ".bin"

/-- The cache that the settings ask for, and the disk on which its directory has been made; none if
it is turned off or cannot be used. -/
def ofSettings (disk : Disk) (settings : DiskCacheSettings) (userCacheDir : Path) :
    Option TableCache × Disk :=
  if settings.enabled then
    let dir := (settings.resolvedDir userCacheDir).join (.ofText "tables")
    match disk.makeDirectories dir with
    | .ok disk => (some ⟨dir, settings.compression, componentName⟩, disk)
    | .error _ => (none, disk)
  else (none, disk)

def entryPath (cache : TableCache) (source : Path) : Path :=
  cache.dir.join (.ofText (cache.entryName source))

def isValid (entry : StoredTable) (source : Path) (text : String) : Bool :=
  entry.formatVersion == formatVersion && entry.programVersion == programVersion &&
    entry.table.file.same source && entry.table.text == text

def load (cache : TableCache) (disk : Disk) (source : Path) (text : String) :
    Except EngineError (Option ModuleTable) :=
  match disk.lookup (cache.entryPath source) with
  | .error _ => .ok none
  | .ok (.file (.stored compressed entry)) =>
    if compressed = cache.compression then
      .ok (if isValid entry source text then some entry.table else none)
    else .error (.cache "Failed to read an entry")
  | .ok _ => .error (.cache "Failed to read an entry")

def store (cache : TableCache) (disk : Disk) (table : ModuleTable) : Except EngineError Disk :=
  let entry : StoredTable := ⟨formatVersion, programVersion, table⟩
  match disk.write (cache.entryPath table.file) (.stored cache.compression entry) with
  | .ok disk => .ok disk
  | .error failure => .error (.cache s!"Failed to write an entry: {failure.message}")

def remove (cache : TableCache) (disk : Disk) (source : Path) : Except EngineError Disk :=
  let path := cache.entryPath source
  if disk.has path then
    match disk.removeFile path with
    | .ok disk => .ok disk
    | .error failure => .error (.cache s!"Failed to remove an entry: {failure.message}")
  else .ok disk

def entries (cache : TableCache) (disk : Disk) : Except IoFailure (List Path) := do
  let names ← disk.names cache.dir
  return (names.map fun name => cache.dir.join ⟨name⟩).filter (·.extension? == some "bin")

def clear (cache : TableCache) (disk : Disk) : Except EngineError (Nat × Disk) :=
  match cache.entries disk with
  | .error failure => .error (.cache s!"Failed to list cache directory: {failure.message}")
  | .ok entries =>
    .ok (entries.foldl (fun (removed, disk) path =>
      match disk.removeFile path with
      | .ok disk => (removed + 1, disk)
      | .error _ => (removed, disk)) (0, disk))

end TableCache

end BslInsight
