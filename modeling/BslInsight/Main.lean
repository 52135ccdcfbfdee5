import BslInsight.Command.Run
import BslInsight.Server.Wire

/-!
# The program

Files are read into a disk before a command runs on it, and what the command has changed is written
afterwards.  The language server does the same for every message.
-/

namespace BslInsight.Program

def userCacheDir : IO Path := do
  match ← IO.getEnv "XDG_CACHE_HOME", ← IO.getEnv "HOME" with
  | some dir, _ => return .ofText dir
  | none, some home => return (Path.ofText home).join (.ofText ".cache")
  | none, none => return .ofText ".cache"

def emptyDisk : IO Disk := do
  let here := Path.ofText (← IO.currentDir).toString
  let names := here.components.filterMap fun
    | .name name => some name
    | _ => none
  let disk : Disk := { workingDir := names }
  return (disk.makeDirectories here).toOption.getD disk

def contentOf (path : String) : IO FileContent := do
  try
    return .bytes (← IO.FS.readBinFile path).toList
  catch _ =>
    return .unreadable

def put (disk : Disk) (path : Path) (content : FileContent) : Disk :=
  let disk := (disk.makeDirectories (path.parent?.getD ⟨[]⟩)).toOption.getD disk
  let disk := (disk.removeFile path).toOption.getD disk
  (disk.write path content).toOption.getD disk

def refresh (disk : Disk) (path : Path) : IO Disk := do
  let place := (← IO.currentDir) / path.text
  if path.text = "" then return disk
  else if ← place.isDir then return (disk.makeDirectories path).toOption.getD disk
  else if ← place.pathExists then return put disk path (← contentOf path.text)
  else return (disk.removeFile path).toOption.getD disk

partial def refreshSources (settings : Settings) (disk : Disk) (path : Path) : IO Disk := do
  let place := (← IO.currentDir) / path.text
  if ← place.isDir then
    let disk := (disk.makeDirectories path).toOption.getD disk
    let mut result := disk
    for entry in ← place.readDir do
      unless settings.excludes (Utf8.encode entry.fileName) do
        result ← refreshSources settings result (path.join (.ofText entry.fileName))
    return result
  else if (settings.dialectFor? path).isSome then
    let size := (← place.metadata).byteSize.toNat
    if size ≤ settings.maxFileSize then return put disk path (← contentOf path.text)
    else return disk
  else return disk

def refreshForEngine (settings : Settings) (userCacheDir : Path) (disk : Disk) : IO Disk := do
  let catalogs := match settings.catalogDir? with
    | some dir => [dir.join (.ofText "bsl.json"), dir.join (.ofText "oscript.json")]
    | none => []
  let disk ← catalogs.foldlM refresh disk
  if settings.diskCache.enabled then
    let dir := (settings.diskCache.resolvedDir userCacheDir).join (.ofText "tables")
    let place := (← IO.currentDir) / dir.text
    let disk ← refresh disk dir
    if ← place.isDir then
      let names := (← place.readDir).toList.map (·.fileName)
      return names.foldl (fun disk name => put disk (dir.join (.ofText name)) (.bytes [])) disk
    else return disk
  else return disk

def commandRoot? : Task → Option Path × Bool
  | .index root _ | .search root _ _ => (some root, true)
  | .symbols file | .indent file _ _ => (file.parent?, false)
  | .serve | .catalog .. => (none, false)

def commandFile? : Task → Option Path
  | .symbols file | .indent file _ _ => some file
  | .index root _ | .search root _ _ => some root
  | .serve | .catalog .. => none

def diskFor (command : Command) (userCacheDir : Path) : IO Disk := do
  let (root?, all) := commandRoot? command.task
  let settingsFile := root?.map (·.join (.ofText settingsFileName))
  let files := command.config?.toList ++ settingsFile.toList ++ (commandFile? command.task).toList
  let disk ← files.foldlM refresh (← emptyDisk)
  let settings := (Command.settingsFor disk command.config? root?).toOption.getD {}
  let disk ← refreshForEngine settings userCacheDir disk
  match root? with
  | some root => if all then refreshSources settings disk root else return disk
  | none => return disk

def writeBack (before after : Disk) (path : Path) : IO Unit := do
  match before.readBytes path, after.readBytes path with
  | .ok old, .ok new => if old ≠ new then IO.FS.writeBinFile path.text ⟨new.toArray⟩
  | _, _ => return

def removeBack (before after : Disk) (settings : Settings) (userCacheDir : Path) : IO Unit := do
  let dir := (settings.diskCache.resolvedDir userCacheDir).join (.ofText "tables")
  for name in (before.names dir).toOption.getD [] do
    unless after.has (dir.join ⟨name⟩) do
      IO.FS.removeFile (dir.join ⟨name⟩).text

def run (command : Command) : IO UInt32 := do
  let started ← IO.monoMsNow
  let cacheDir ← userCacheDir
  let disk ← diskFor command cacheDir
  match command.run disk cacheDir with
  | .error message =>
    IO.eprintln ("❌ " ++ message)
    return 1
  | .ok outcome =>
    match command.task with
    | .indent file _ true => writeBack disk outcome.disk file
    | .index root true =>
      let settings := (Command.settingsFor disk command.config? (some root)).toOption.getD {}
      removeBack disk outcome.disk settings cacheDir
    | _ => pure ()
    IO.print (outcome.text ((← IO.monoMsNow) - started))
    return 0

partial def readBytes (input : IO.FS.Stream) (count : Nat) (done : ByteArray) : IO ByteArray := do
  if done.size < count then
    let more ← input.read (count - done.size).toUSize
    if more.isEmpty then return done else readBytes input count (done ++ more)
  else return done

partial def readHeader (input : IO.FS.Stream) (length? : Option Nat) : IO (Option Nat) := do
  let line ← input.getLine
  if line.isEmpty then return none
  else if line.trimAscii.isEmpty then return length?
  else readHeader input (Server.Wire.contentLength? line <|> length?)

def refreshFor (server : Server) (message : Server.Message) : IO Server := do
  let disk ← (Server.Wire.files message).foldlM refresh server.disk
  match Server.Wire.root? message with
  | none => return server.withDisk disk
  | some root =>
    let disk ← [root, root.join (.ofText settingsFileName)].foldlM refresh disk
    let settings := (Settings.forRoot disk root).toOption.getD {}
    let disk ← refreshForEngine settings server.userCacheDir disk
    return server.withDisk (← refreshSources settings disk root)

partial def serve (input output : IO.FS.Stream) (started : Nat) (server : Server) : IO Unit := do
  match ← readHeader input none with
  | none => return
  | some length =>
    let body ← readBytes input length ByteArray.empty
    let json? := (Utf8.decode? body.toList).bind Json.parse?
    match json?.bind Server.Wire.message? with
    | none => serve input output started server
    | some (id, message) =>
      let server := server.advance ((← IO.monoMsNow) - started - server.now)
      let server ← refreshFor server message
      let (server, reply, sent) := server.receive message
      for value in sent.map Server.Wire.sent ++ (Server.Wire.response? id reply).toList do
        output.putStr (Server.Wire.frame value)
      output.flush
      if server.phase = .exited then return else serve input output started server

end BslInsight.Program

open BslInsight in
def main (arguments : List String) : IO UInt32 := do
  match Command.ofArguments arguments with
  | .error .usage =>
    IO.eprint (Command.helpText none)
    return 2
  | .error (.help task?) =>
    IO.print (Command.helpText task?)
    return 0
  | .error .version =>
    IO.print Command.versionText
    return 0
  | .ok command =>
    if command.task = .serve then
      let server := Server.start (← Program.emptyDisk) (← Program.userCacheDir)
      Program.serve (← IO.getStdin) (← IO.getStdout) (← IO.monoMsNow) server
      return 0
    else Program.run command
