import BslInsight.ModuleTable.Scan
import BslInsight.Workspace.Snapshot
import BslInsight.Workspace.Sources
import BslInsight.Workspace.TableCache

/-!
# The workspace

The tables of all modules below a root directory.  The text of a buffer that is open in an editor
prevails over the text on disk.

A rebuild begins, collects the tables, and commits them; other steps may happen in between.  Only
the rebuild that began last may commit, and files that were edited since it began keep their state.
-/

namespace BslInsight

abbrev PathMap (α : Type) := List (Path × α)

namespace PathMap

def get? {α : Type} (entries : PathMap α) (path : Path) : Option α :=
  (entries.find? fun (key, _) => key.same path).map Prod.snd

def erase {α : Type} (entries : PathMap α) (path : Path) : PathMap α :=
  entries.filter fun (key, _) => !key.same path

def insert {α : Type} (entries : PathMap α) (path : Path) (value : α) : PathMap α :=
  entries.erase path ++ [(path, value)]

end PathMap

/-- The state of a workspace.

`generation` counts the rebuilds that were begun, and `edits` the updates and evictions; `lastEdits`
holds the number of the last edit of each file.  `serial` counts the snapshots that were published,
and `indexed` holds the numbers of those whose reverse index has been needed. -/
structure Workspace where
  settings : Settings := {}
  cache? : Option TableCache := none
  snapshot : Snapshot := {}
  root? : Option Path := none
  generation : Nat := 0
  edits : Nat := 0
  lastEdits : PathMap Nat := []
  buffers : PathMap String := []
  serial : Nat := 0
  indexed : List Nat := []

structure RebuildTicket where
  generation : Nat
  startEdits : Nat
deriving DecidableEq, Repr

inductive RebuildOutcome where
  | completed (generation files failed : Nat)
  | superseded (generation : Nat)
deriving DecidableEq, Repr

namespace Workspace

def ofSettings (disk : Disk) (settings : Settings) (userCacheDir : Path) : Workspace × Disk :=
  let (cache?, disk) := TableCache.ofSettings disk settings.diskCache userCacheDir
  ({ settings, cache? }, disk)

def dialectOf (workspace : Workspace) (path : Path) : Dialect :=
  (workspace.settings.dialectFor? path <|> Dialect.ofPath? path).getD .bsl

def parse (workspace : Workspace) (path : Path) (text : String) : ModuleTable :=
  parseModule path (workspace.dialectOf path) text

def table? (workspace : Workspace) (path : Path) : Option ModuleTable :=
  workspace.snapshot.get? path.normalize

def noteEdit (workspace : Workspace) (path : Path) : Workspace :=
  { workspace with
    edits := workspace.edits + 1
    lastEdits := workspace.lastEdits.insert path (workspace.edits + 1) }

def publish (workspace : Workspace) (snapshot : Snapshot) : Workspace :=
  { workspace with snapshot, serial := workspace.serial + 1 }

def isIndexed (workspace : Workspace) (serial : Nat) : Bool :=
  workspace.indexed.contains serial

def noteIndexed (workspace : Workspace) (serial : Nat) : Workspace :=
  if workspace.isIndexed serial then workspace
  else { workspace with indexed := serial :: workspace.indexed }

def touchIndex (workspace : Workspace) (needed : Bool) : Workspace :=
  if needed then workspace.noteIndexed workspace.serial else workspace

def updateFile (workspace : Workspace) (path : Path) (text : String) : ModuleTable × Workspace :=
  let path := path.normalize
  let table := workspace.parse path text
  (table, (workspace.publish (workspace.snapshot.withTable path table)).noteEdit path)

/-- Withdraws the table of a file.  The eviction is noted even if there is no table, because a
rebuild that has begun may bring one. -/
def evictTable (workspace : Workspace) (path : Path) : Workspace :=
  let path := path.normalize
  let withdrawn :=
    if workspace.snapshot.contains path then workspace.publish (workspace.snapshot.without path)
    else workspace
  withdrawn.noteEdit path

def evictFile (workspace : Workspace) (disk : Disk) (path : Path) : Workspace × Disk :=
  let cleaned := match workspace.cache? with
    | some cache => (cache.remove disk path.normalize).toOption.getD disk
    | none => disk
  (workspace.evictTable path, cleaned)

def openBuffer (workspace : Workspace) (path : Path) (text : String) : Workspace :=
  { workspace with buffers := workspace.buffers.insert path.normalize text }

def closeBuffer (workspace : Workspace) (path : Path) : Workspace :=
  { workspace with buffers := workspace.buffers.erase path.normalize }

def bufferText? (workspace : Workspace) (path : Path) : Option String :=
  workspace.buffers.get? path.normalize

def reload (workspace : Workspace) (disk : Disk) (path : Path) :
    Option ModuleTable × Workspace × Disk :=
  match readSource disk path with
  | .ok text =>
    let (table, workspace) := workspace.updateFile path text
    (some table, workspace, disk)
  | .error _ => (none, workspace.evictFile disk path)

def beginRebuild (workspace : Workspace) (root : Path) : RebuildTicket × Workspace :=
  (⟨workspace.generation + 1, workspace.edits⟩,
    { workspace with generation := workspace.generation + 1, root? := some root })

def loadFile (workspace : Workspace) (disk : Disk) (path : Path) : Option ModuleTable × Disk :=
  match readSource disk path with
  | .error _ => (none, disk)
  | .ok text =>
    match workspace.cache? with
    | none => (some (workspace.parse path text), disk)
    | some cache =>
      match cache.load disk path text with
      | .ok (some table) => (some table, disk)
      | _ =>
        let table := workspace.parse path text
        (some table, (cache.store disk table).toOption.getD disk)

def loadTable (workspace : Workspace) (disk : Disk) (path : Path) : Option ModuleTable × Disk :=
  match workspace.buffers.get? path with
  | some text => (some (workspace.parse path text), disk)
  | none => workspace.loadFile disk path

structure Collected where
  tables : TableMap := []
  failed : Nat := 0

def collectFile (workspace : Workspace) (state : Collected × Disk) (path : Path) :
    Collected × Disk :=
  let (collected, disk) := state
  match workspace.loadTable disk path with
  | (some table, disk) => ({ collected with tables := collected.tables.insert path table }, disk)
  | (none, disk) => ({ collected with failed := collected.failed + 1 }, disk)

def collectBuffer (workspace : Workspace) (root : Path) (collected : Collected)
    (buffer : Path × String) : Collected :=
  let (path, text) := buffer
  if path.startsWith root && (collected.tables.get? path).isNone &&
      (workspace.settings.dialectFor? path).isSome then
    { collected with tables := collected.tables.insert path (workspace.parse path text) }
  else collected

def collect (workspace : Workspace) (disk : Disk) (root : Path) : Collected × Disk :=
  let (collected, disk) := (sourceFiles workspace.settings disk root).foldl
    workspace.collectFile ({}, disk)
  (workspace.buffers.foldl (workspace.collectBuffer root) collected, disk)

def keepCurrent (snapshot : Snapshot) (tables : TableMap) (path : Path) : TableMap :=
  match snapshot.get? path with
  | some table => tables.insert path table
  | none => tables.erase path

/-- The last step of a rebuild: publishes the tables, unless a later rebuild has begun.  Files that
were edited since the rebuild began keep their current state. -/
def commit (workspace : Workspace) (ticket : RebuildTicket) (tables : TableMap) :
    Option Snapshot × Workspace :=
  if workspace.generation = ticket.generation then
    let recent := workspace.lastEdits.filter fun (_, edit) => ticket.startEdits < edit
    let tables := recent.foldl
      (fun tables (path, _) => keepCurrent workspace.snapshot tables path) tables
    let snapshot : Snapshot := ⟨tables, ticket.generation⟩
    (some snapshot, { workspace.publish snapshot with lastEdits := recent })
  else (none, workspace)

def outcome (ticket : RebuildTicket) (failed : Nat) : Option Snapshot → RebuildOutcome
  | some snapshot => .completed ticket.generation snapshot.tables.length failed
  | none => .superseded ticket.generation

def rebuildRoot (disk : Disk) (root : Path) : Except EngineError Path :=
  if disk.isDirectory root.normalize then .ok root.normalize
  else .error (.io root.normalize .rootNotDirectory)

def fullRebuild (workspace : Workspace) (disk : Disk) (root : Path) :
    Except EngineError RebuildOutcome × Workspace × Disk :=
  match rebuildRoot disk root with
  | .error error => (.error error, workspace, disk)
  | .ok root =>
    let (ticket, workspace) := workspace.beginRebuild root
    let (collected, disk) := workspace.collect disk root
    let (snapshot?, workspace) := workspace.commit ticket collected.tables
    (.ok (outcome ticket collected.failed snapshot?), workspace, disk)

end Workspace

end BslInsight
