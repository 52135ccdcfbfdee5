import BslInsight.Catalog.BuiltIn
import BslInsight.Catalog.Reader
import BslInsight.Completion
import BslInsight.Hover
import BslInsight.Indent
import BslInsight.References
import BslInsight.Search
import BslInsight.Signature
import BslInsight.Workspace

/-!
# Queries

Everything an editor asks about a module, answered for the text that the user sees.  The table of
the workspace is used only if it belongs to that very text.
-/

namespace BslInsight

structure Catalogs where
  bsl : Catalog
  oneScript : Catalog

namespace Catalogs

def builtIn : Catalogs :=
  ⟨Catalog.builtIn .bsl, Catalog.builtIn .oneScript⟩

def forDialect (catalogs : Catalogs) : Dialect → Catalog
  | .bsl => catalogs.bsl
  | .oneScript => catalogs.oneScript

def loadOne (disk : Disk) (dir : Path) (dialect : Dialect) : Except EngineError Catalog := do
  let path := dir.join (.ofText (dialect.label ++ ".json"))
  if disk.has path then Catalog.ofText dialect (← disk.readText path)
  else .ok (Catalog.builtIn dialect)

def load (disk : Disk) (dir : Path) : Except EngineError Catalogs := do
  return ⟨← loadOne disk dir .bsl, ← loadOne disk dir .oneScript⟩

end Catalogs

structure Engine where
  catalogs : Catalogs
  workspace : Workspace

namespace Engine

def ofSettings (disk : Disk) (settings : Settings) (userCacheDir : Path) :
    Except EngineError (Engine × Disk) := do
  let catalogs ← match settings.catalogDir? with
    | some dir => Catalogs.load disk dir
    | none => .ok Catalogs.builtIn
  let (workspace, disk) := Workspace.ofSettings disk settings userCacheDir
  return (⟨catalogs, workspace⟩, disk)

def locale (engine : Engine) : Locale :=
  engine.workspace.settings.locale

def catalog (engine : Engine) (dialect : Dialect) : Catalog :=
  engine.catalogs.forDialect dialect

def document (engine : Engine) (path : Path) (text : String) : ModuleTable :=
  let path := path.normalize
  let text := String.ofList (dropByteOrderMark text.toList)
  match engine.workspace.snapshot.get? path with
  | some table => if table.text = text then table else engine.workspace.parse path text
  | none => engine.workspace.parse path text

def resolver (engine : Engine) (path : Path) (text : String) : Resolver :=
  let table := engine.document path text
  ⟨table, engine.workspace.snapshot, engine.catalog table.dialect⟩

def resolveAt (engine : Engine) (path : Path) (text : String) (position : Position) :
    Option Resolution :=
  (engine.resolver path text).resolveAt position

def completionsAt (engine : Engine) (path : Path) (text : String) (position : Position) :
    List Candidate :=
  (engine.resolver path text).completions position engine.locale

def definitionOf (engine : Engine) (path : Path) (text : String) (position : Position) :
    Option FileLocation :=
  (engine.resolveAt path text position).bind Resolution.location?

def hoverAt (engine : Engine) (path : Path) (text : String) (position : Position) : Option Hover :=
  (engine.resolver path text).hoverAt? position engine.locale

def referencesTo (engine : Engine) (path : Path) (text : String) (position : Position) :
    List FileLocation :=
  (engine.resolver path text).referencesAt position

def signatureOf (engine : Engine) (path : Path) (text : String) (position : Position) :
    Option Signature :=
  (engine.resolver path text).signatureAt? position engine.locale

def documentSymbols (engine : Engine) (path : Path) (text : String) : List Symbol :=
  (engine.document path text).symbols

def workspaceSymbols (engine : Engine) (query : String) : List SymbolMatch :=
  searchSymbols engine.workspace.snapshot query

def helperItems (engine : Engine) (dialect : Dialect) (filter : String) : List Catalog.HelperItem :=
  (engine.catalog dialect).helperItems filter engine.locale

def touchIndex (engine : Engine) (needed : Bool) : Engine :=
  { engine with workspace := engine.workspace.touchIndex needed }

end Engine

end BslInsight
