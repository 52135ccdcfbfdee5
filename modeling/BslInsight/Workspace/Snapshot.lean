import BslInsight.ModuleTable

/-!
# Workspace snapshots

The tables of all indexed modules in the order of their paths, with a reverse index that finds
declarations by name and modules by module name.
-/

namespace BslInsight

abbrev TableMap := List (Path × ModuleTable)

namespace TableMap

def get? (tables : TableMap) (path : Path) : Option ModuleTable :=
  (tables.find? fun (key, _) => key.same path).map Prod.snd

def insert (path : Path) (table : ModuleTable) : TableMap → TableMap
  | [] => [(path, table)]
  | (key, old) :: rest =>
    match path.compare key with
    | .lt => (path, table) :: (key, old) :: rest
    | .eq => (key, table) :: rest
    | .gt => (key, old) :: insert path table rest

def erase (tables : TableMap) (path : Path) : TableMap :=
  tables.filter fun (key, _) => !key.same path

end TableMap

structure IndexedSymbol where
  file : Path
  symbol : Symbol
deriving DecidableEq, Repr

abbrev Groups (α : Type) := List (String × List α)

namespace Groups

def push {α : Type} (groups : Groups α) (key : String) (item : α) : Groups α :=
  match groups with
  | [] => [(key, [item])]
  | (other, items) :: rest =>
    if other = key then (other, items ++ [item]) :: rest else (other, items) :: push rest key item

def get {α : Type} (groups : Groups α) (key : String) : List α :=
  (groups.lookup key).getD []

end Groups

structure ReverseIndex where
  byName : Groups IndexedSymbol := []
  modules : Groups Path := []
deriving DecidableEq, Repr

namespace ReverseIndex

def addTable (index : ReverseIndex) (path : Path) (table : ModuleTable) : ReverseIndex where
  byName := table.symbols.foldl
    (fun groups symbol => groups.push symbol.lowerName ⟨path, symbol⟩) index.byName
  modules := match table.name? with
    | some name => index.modules.push (lower name) path
    | none => index.modules

def ofTables (tables : TableMap) : ReverseIndex :=
  tables.foldl (fun index (path, table) => index.addTable path table) {}

def lookup (index : ReverseIndex) (name : String) : List IndexedSymbol :=
  index.byName.get (lower name)

def names (index : ReverseIndex) : List String :=
  index.byName.map Prod.fst

def entries (index : ReverseIndex) : List IndexedSymbol :=
  index.byName.flatMap Prod.snd

def size (index : ReverseIndex) : Nat :=
  index.byName.foldr (fun (_, items) size => items.length + size) 0

def moduleFiles (index : ReverseIndex) (name : String) : List Path :=
  index.modules.get (lower name)

end ReverseIndex

/-- The state of the workspace that queries see.  `generation` tells from which rebuild it comes. -/
structure Snapshot where
  tables : TableMap := []
  generation : Nat := 0
deriving DecidableEq, Repr

namespace Snapshot

def get? (snapshot : Snapshot) (path : Path) : Option ModuleTable :=
  snapshot.tables.get? path

def contains (snapshot : Snapshot) (path : Path) : Bool :=
  (snapshot.get? path).isSome

def files (snapshot : Snapshot) : List Path :=
  snapshot.tables.map Prod.fst

def withTable (snapshot : Snapshot) (path : Path) (table : ModuleTable) : Snapshot :=
  { snapshot with tables := snapshot.tables.insert path table }

def without (snapshot : Snapshot) (path : Path) : Snapshot :=
  { snapshot with tables := snapshot.tables.erase path }

def reverseIndex (snapshot : Snapshot) : ReverseIndex :=
  .ofTables snapshot.tables

def symbolCount (snapshot : Snapshot) : Nat :=
  snapshot.tables.foldr (fun (_, table) count => table.symbols.length + count) 0

def exportedMethodsNamed (snapshot : Snapshot) (name : String) (exclude : Path) : List Symbol :=
  ((snapshot.reverseIndex.lookup name).filter fun found =>
    !found.file.same exclude && found.symbol.kind.isMethod && found.symbol.exported).map (·.symbol)

def exportedMethods (snapshot : Snapshot) (exclude : Path) : List Symbol :=
  (snapshot.tables.filter fun (path, _) => !path.same exclude).flatMap
    fun (_, table) => table.exportedMethods

def moduleNamed? (snapshot : Snapshot) (name : String) : Option ModuleTable :=
  (snapshot.reverseIndex.moduleFiles name).head?.bind snapshot.get?

end Snapshot

end BslInsight
