import BslInsight.Command
import BslInsight.Engine
import BslInsight.Settings.File

/-!
# Running of commands

A command reads files and gives a text and perhaps changed files, or fails with a message that
names the circumstances from the outermost to the cause.
-/

namespace BslInsight

def EngineError.chain (error : EngineError) : String :=
  match error.cause? with
  | some cause => error.message ++ ": " ++ cause
  | none => error.message

structure Outcome where
  text : Nat → String
  disk : Disk

namespace Command

def inContext {α : Type} (circumstances : String) (result : Except EngineError α) :
    Except String α :=
  result.mapError fun error => circumstances ++ ": " ++ error.chain

def requirePath (disk : Disk) (path : Path) (description : String) : Except String Unit :=
  if disk.has path then .ok () else .error s!"{description} does not exist: {path.text}"

def settingsFor (disk : Disk) (config? root? : Option Path) : Except String Settings :=
  match config?, root? with
  | some path, _ => inContext s!"Failed to load config {path.text}" (Settings.ofFile disk path)
  | none, some root =>
    inContext s!"Failed to load config from {root.text}" (Settings.forRoot disk root)
  | none, none => .ok {}

def engineFor (disk : Disk) (userCacheDir : Path) (settings : Settings) :
    Except String (Engine × Disk) :=
  inContext "Failed to initialize the language engine"
    (Engine.ofSettings disk settings userCacheDir)

def success (message : String) : String :=
  Report.line ("✅ " ++ message)

def warning (message : String) : String :=
  Report.line ("⚠️ " ++ message)

def indexed (engine : Engine) (disk : Disk) (root : Path) :
    Except String (Engine × Disk × Nat × Nat) := do
  let (outcome, workspace, disk) := engine.workspace.fullRebuild disk root
  match ← inContext s!"Failed to index {root.text}" outcome with
  | .completed _ files failed => return ({ engine with workspace }, disk, files, failed)
  | .superseded _ => .error "Indexing was superseded by another rebuild"

def withoutCache (engine : Engine) (disk : Disk) (clearCache : Bool) : Except String Disk :=
  match if clearCache then engine.workspace.cache? else none with
  | none => .ok disk
  | some cache => do
    let (_, disk) ← inContext "Failed to clear table cache" (cache.clear disk)
    return disk

def index (disk : Disk) (userCacheDir root : Path) (clearCache : Bool) (command : Command) :
    Except String Outcome := do
  requirePath disk root "Workspace root"
  let settings ← settingsFor disk command.config? (some root)
  let (engine, disk) ← engineFor disk userCacheDir settings
  let disk ← withoutCache engine disk clearCache
  let (engine, disk, files, failed) ← indexed engine disk root
  let symbols := engine.workspace.snapshot.symbolCount
  let text := fun (elapsed : Nat) =>
    match command.format with
    | .json => Report.object true (.obj [("root", root.toJson), ("files", .ofNat files),
        ("failed", .ofNat failed), ("symbols", .ofNat symbols), ("elapsed_ms", .ofNat elapsed)])
    | format =>
      Report.header format s!"Workspace {root.text}" ++
        Report.line s!"Files indexed:  {files}" ++
        Report.line s!"Symbols:        {symbols}" ++
        Report.line s!"Time:           {Report.duration elapsed}" ++
        (if failed = 0 then success "Indexing complete"
          else warning s!"{failed} files could not be read")
  return ⟨text, disk⟩

def padNumber (width n : Nat) : String :=
  "".pushn ' ' (width - (toString n).length) ++ toString n

def symbolRow (symbol : Symbol) : List String :=
  [symbol.signatureLabel, symbol.kind.label, toString (symbol.range.startLine + 1),
    if symbol.exported then "yes" else "", symbol.region.getD ""]

def symbolLine (symbol : Symbol) : String :=
  Report.line (padNumber 5 (symbol.range.startLine + 1) ++ "  " ++
    Report.pad 10 symbol.kind.label ++ " " ++ symbol.signatureLabel ++
    if symbol.exported then " Экспорт" else "")

def symbols (disk : Disk) (userCacheDir file : Path) (command : Command) :
    Except String Outcome := do
  requirePath disk file "Source file"
  let settings ← settingsFor disk command.config? file.parent?
  let (engine, disk) ← engineFor disk userCacheDir settings
  let text ← inContext s!"Failed to read {file.text}" (readSource disk file)
  let found := engine.documentSymbols file text
  let output := match command.format with
    | .json => Report.object true (.arr (found.map Symbol.toJson))
    | .table => Report.table ["Symbol", "Kind", "Line", "Export", "Region"] (found.map symbolRow)
    | .text => String.join (found.map symbolLine)
  return ⟨fun _ => output, disk⟩

def relative (root file : Path) : String :=
  ((file.relativeTo? root.normalize).getD file).text

def search (disk : Disk) (userCacheDir root : Path) (query : String) (limit : Nat)
    (command : Command) : Except String Outcome := do
  requirePath disk root "Workspace root"
  let settings ← settingsFor disk command.config? (some root)
  let (engine, disk) ← engineFor disk userCacheDir settings
  let (engine, disk, _, _) ← indexed engine disk root
  let found := (engine.workspaceSymbols query).take limit
  let lineOf := fun (symbol : Symbol) => toString (symbol.range.startLine + 1)
  let output := match command.format with
    | .json => Report.object true (.arr (found.map SymbolMatch.toJson))
    | .table => Report.table ["Symbol", "Kind", "File", "Line"] (found.map fun found =>
        [found.symbol.name, found.symbol.kind.label, relative root found.symbol.file,
          lineOf found.symbol])
    | .text => String.join (found.map fun found =>
        Report.line (relative root found.symbol.file ++ ":" ++ lineOf found.symbol ++ ": " ++
          found.symbol.signatureLabel))
  return ⟨fun _ => output, disk⟩

def dropLineFeed (text : String) : String :=
  if text.toList.getLast? = some '\n' then String.ofList text.toList.dropLast else text

/-- The bytes of a module that is written back.  A byte order mark stays. -/
def formattedBytes (raw : List UInt8) (text : String) : List UInt8 :=
  (if [0xef, 0xbb, 0xbf].isPrefixOf raw then [0xef, 0xbb, 0xbf] else []) ++ Utf8.encode text

def indent (disk : Disk) (userCacheDir file : Path) (spaces? : Option Nat) (write : Bool)
    (command : Command) : Except String Outcome := do
  requirePath disk file "Source file"
  let settings ← settingsFor disk none file.parent?
  let (_, disk) ← engineFor disk userCacheDir settings
  let text ← inContext s!"Failed to read {file.text}" (readSource disk file)
  let style : IndentStyle := match spaces? with
    | some tabSize => { tabSize, insertSpaces := true }
    | none => {}
  let edits := indentEdits style none text.toList
  let formatted := String.ofList (applyIndentEdits text.toList edits)
  if write then
    let message := success s!"{edits.length} lines re-indented"
    if edits.isEmpty then return ⟨fun _ => message, disk⟩
    else
      let raw ← (disk.readBytes file).mapError fun failure =>
        s!"Failed to read {file.text}: {failure.message}"
      let disk ← (disk.write file (.bytes (formattedBytes raw formatted))).mapError fun failure =>
        s!"Failed to write {file.text}: {failure.message}"
      return ⟨fun _ => message, disk⟩
  else
    let output := match command.format with
      | .json => Report.object true (.arr (edits.map IndentEdit.toJson))
      | _ => Report.line (dropLineFeed formatted)
    return ⟨fun _ => output, disk⟩

def catalog (disk : Disk) (userCacheDir : Path) (filter : String) (dialect : Dialect)
    (limit : Nat) (command : Command) : Except String Outcome := do
  let settings ← settingsFor disk command.config? none
  let (engine, disk) ← engineFor disk userCacheDir settings
  let items := (engine.helperItems dialect filter).take limit
  let output := match command.format with
    | .json => Report.object true (.arr (items.map Catalog.HelperItem.toJson))
    | .table => Report.table ["Name", "Kind", "Path"] (items.map fun item =>
        [item.label, item.entry.kind.label, item.path])
    | .text => String.join (items.map fun item =>
        Report.line (item.entry.signatureLabel engine.locale ++ "  [" ++ item.path ++ "]"))
  return ⟨fun _ => output, disk⟩

def run (disk : Disk) (userCacheDir : Path) (command : Command) : Except String Outcome :=
  match command.task with
  | .serve => .ok ⟨fun _ => "", disk⟩
  | .index root clearCache => index disk userCacheDir root clearCache command
  | .symbols file => symbols disk userCacheDir file command
  | .search root query limit => search disk userCacheDir root query limit command
  | .indent file spaces? write => indent disk userCacheDir file spaces? write command
  | .catalog filter dialect limit => catalog disk userCacheDir filter dialect limit command

end Command

end BslInsight
