import BslInsight.Engine
import BslInsight.Server.Answer
import BslInsight.Server.Diagnostic
import BslInsight.Server.Message
import BslInsight.Server.Outline
import BslInsight.Settings.File
import BslInsight.Workspace.Worker

/-!
# The language server

The server keeps the texts of open documents, tells the update worker what happens to them and
answers queries about their last texts.
-/

namespace BslInsight

namespace Server

inductive Phase where
  | uninitialized
  | ready
  | shutDown
  | exited
deriving DecidableEq, Repr

structure Sent where
  method : String
  params : Json

inductive Reply where
  | silent
  | result (value : Json)
  | refused (reason : Refusal)
  | ended

abbrev Documents := List (Uri × String)

namespace Documents

def close (documents : Documents) (uri : Uri) : Documents :=
  documents.filter fun (key, _) => key != uri

def set (documents : Documents) (uri : Uri) (text : String) : Documents :=
  (uri, text) :: documents.close uri

def text? (documents : Documents) (uri : Uri) : Option String :=
  documents.lookup uri

end Documents

end Server

open Server in
structure Server where
  phase : Phase := .uninitialized
  catalogs : Catalogs := Catalogs.builtIn
  worker : Worker
  documents : Documents := []
  now : Nat := 0
  userCacheDir : Path

namespace Server

def start (disk : Disk) (userCacheDir : Path) : Server :=
  let (workspace, disk) := Workspace.ofSettings disk {} userCacheDir
  { worker := { workspace, disk }, userCacheDir }

def engine (server : Server) : Engine :=
  ⟨server.catalogs, server.worker.workspace⟩

def disk (server : Server) : Disk :=
  server.worker.disk

def withDisk (server : Server) (disk : Disk) : Server :=
  { server with worker := { server.worker with disk } }

def advance (server : Server) (milliseconds : Nat) : Server :=
  let now := server.now + milliseconds
  if server.phase = .ready then { server with now, worker := server.worker.applyDue now }
  else { server with now }

def tell (server : Server) (command : WorkerCommand) : Server :=
  let worker := server.worker.receive server.now command
  { server with now := server.now + 1, worker := worker.applyDue (server.now + 1) }

def publish (uri : Uri) (found : List Diagnostic) (version? : Option Int) : Sent where
  method := "textDocument/publishDiagnostics"
  params := .ofPresent [("uri", some (.str uri.text)),
    ("diagnostics", some (.arr (found.map Diagnostic.toJson))),
    ("version", version?.map .int)]

def issuesOf (server : Server) (path : Path) (text : String) : List Diagnostic :=
  diagnostics (parseModule path (server.worker.workspace.dialectOf path) text)

def greetings : List Sent :=
  [{ method := "client/registerCapability"
     params := .obj [("registrations", .arr [.obj [
       ("id", .str "bsl-intellisense-watcher"),
       ("method", .str "workspace/didChangeWatchedFiles"),
       ("registerOptions", .obj [("watchers", .arr [
         .obj [("globPattern", .str "**/*.\x7bbsl,os\x7d")]])])]])] },
   { method := "window/logMessage"
     params := .obj [("type", .ofNat 3), ("message", .str "BSL Language Server ready")] }]

def fileChanged (server : Server) (event : FileEvent) : Server :=
  match event.uri.filePath? with
  | none => server
  | some path =>
    if (Dialect.ofPath? path).isNone then server
    else if event.deleted then server.tell (.deleted path)
    else if (server.documents.text? event.uri).isSome then server
    else server.tell (.saved path none)

def notice (server : Server) : Notice → Server × List Sent
  | .initialized => (server, greetings)
  | .opened uri version text =>
    match uri.filePath? with
    | none => (server, [])
    | some path =>
      let server := { server with documents := server.documents.set uri text }
      let server := server.tell (.opened path text)
      (server, [publish uri (server.issuesOf path text) (some version)])
  | .changed uri texts =>
    match texts.getLast?, uri.filePath? with
    | some text, some path =>
      let server := { server with documents := server.documents.set uri text }
      (server.tell (.changed path text), [])
    | _, _ => (server, [])
  | .saved uri text? =>
    match uri.filePath? with
    | none => (server, [])
    | some path =>
      let documents := match text? with
        | some text => server.documents.set uri text
        | none => server.documents
      let server := { server with documents }.tell (.saved path text?)
      match server.documents.text? uri with
      | some text => (server, [publish uri (server.issuesOf path text) none])
      | none => (server, [])
  | .closed uri =>
    let server := { server with documents := server.documents.close uri }
    let server := match uri.filePath? with
      | some path => server.tell (.closed path)
      | none => server
    (server, [publish uri [] none])
  | .filesChanged events => (events.foldl fileChanged server, [])

def maxWorkspaceSymbols : Nat := 256

def aboutDocument (server : Server) (uri : Uri) (answer : Path → String → Json) : Json :=
  match uri.filePath?, server.documents.text? uri with
  | some path, some text => answer path text
  | _, _ => .null

def references (engine : Engine) (path : Path) (text : String) (position : Position)
    (includeDeclaration : Bool) : Option (List Location) :=
  (engine.resolveAt path text position).map fun resolution =>
    let length := resolution.name.length
    let found := (engine.referencesTo path text position).filterMap (Location.ofFile? · length)
    match if includeDeclaration then none
      else resolution.location?.bind (Location.ofFile? · length) with
    | some declaration => found.filter (· != declaration)
    | none => found

def answer (server : Server) : Query → Json
  | .completion place => server.aboutDocument place.uri fun path text =>
    .arr ((completionItems (server.engine.completionsAt path text place.position)).map
      CompletionItem.toJson)
  | .hover place => server.aboutDocument place.uri fun path text =>
    Json.orNull hoverJson (server.engine.hoverAt path text place.position)
  | .signature place => server.aboutDocument place.uri fun path text =>
    Json.orNull signatureJson (server.engine.signatureOf path text place.position)
  | .definition place => server.aboutDocument place.uri fun path text =>
    Json.orNull Location.toJson ((server.engine.resolveAt path text place.position).bind
      fun resolution => resolution.location?.bind (Location.ofFile? · resolution.name.length))
  | .references place includeDeclaration => server.aboutDocument place.uri fun path text =>
    Json.orNull (fun found => .arr (found.map Location.toJson))
      (references server.engine path text place.position includeDeclaration)
  | .documentSymbols uri => server.aboutDocument uri fun path text =>
    .arr ((server.engine.documentSymbols path text).filterMap fun symbol =>
      (OutlineItem.ofSymbol? (some (splitLines text.toList)) symbol).map OutlineItem.toJson)
  | .workspaceSymbols query =>
    .arr (((server.engine.workspaceSymbols query).take maxWorkspaceSymbols).filterMap fun found =>
      (OutlineItem.ofSymbol? none found.symbol).map OutlineItem.toJson)
  | .indentation uri style lines? => server.aboutDocument uri fun _ text =>
    .arr ((indentEdits style lines? text.toList).map editJson)

/-- The last letters of words that end a block, after which a line is indented anew. -/
def indentTriggers : List String :=
  ["и", "ы", "е", "а", "e", "n", "f", "o", "y", "t"]

def capabilities : Json :=
  .obj [
    ("textDocumentSync", .obj [("openClose", .bool true), ("change", .ofNat 1),
      ("save", .obj [("includeText", .bool true)])]),
    ("completionProvider", .obj [("resolveProvider", .bool false),
      ("triggerCharacters", .ofStrings [".", " "])]),
    ("hoverProvider", .bool true),
    ("signatureHelpProvider", .obj [("triggerCharacters", .ofStrings ["(", ","])]),
    ("definitionProvider", .bool true),
    ("referencesProvider", .bool true),
    ("documentSymbolProvider", .bool true),
    ("workspaceSymbolProvider", .bool true),
    ("documentFormattingProvider", .bool true),
    ("documentRangeFormattingProvider", .bool true),
    ("documentOnTypeFormattingProvider", .obj [("firstTriggerCharacter", .str "\n"),
      ("moreTriggerCharacter", .ofStrings indentTriggers)])]

def introduction : Json :=
  .obj [("capabilities", capabilities),
    ("serverInfo", .obj [("name", .str "bsl-intellisense"), ("version", .str programVersion)])]

/-- Starts to work for a client.  Settings that cannot be used are replaced by the defaults. -/
def startFor (server : Server) (root? : Option Path) : Except EngineError Server := do
  let settings := match root? with
    | some root => (Settings.forRoot server.disk root).toOption.getD {}
    | none => {}
  let (engine, disk) ← Engine.ofSettings server.disk settings server.userCacheDir
  let server := { server with
    phase := .ready, catalogs := engine.catalogs, worker := ⟨engine.workspace, disk, []⟩ }
  match root? with
  | some root => return server.tell (.rebuild (some root))
  | none => return server

def Phase.refusal : Phase → Refusal
  | .uninitialized => .notInitialized
  | _ => .invalidRequest

def refuse (message : Message) (reason : Refusal) : Reply :=
  if message.wantsAnswer then .refused reason else .silent

def welcome (server : Server) (message : Message) : Server × Reply :=
  if server.phase ≠ .uninitialized then (server, refuse message .invalidRequest)
  else if !message.wantsAnswer then (server, .silent)
  else
    match message.params?.bind initializeParams? with
    | none => (server, .refused .invalidParams)
    | some uri? =>
      match server.startFor (uri?.bind Uri.filePath?) with
      | .ok server => (server, .result introduction)
      | .error error => (server, .refused (.internal error.message))

def shutDown (server : Server) (message : Message) : Server × Reply :=
  if server.phase ≠ .ready then (server, refuse message server.phase.refusal)
  else
    let stopped := { server with phase := .shutDown }
    if !message.wantsAnswer then (stopped, .silent)
    else if message.params?.isSome then (stopped, .refused .invalidParams)
    else (stopped.tell .shutdown, .result .null)

/-- A message about documents.  A query without an identifier is dropped, and a notice with one is
refused. -/
def converse (server : Server) (message : Message) : Server × Reply × List Sent :=
  if server.phase ≠ .ready then (server, refuse message server.phase.refusal, [])
  else if Notice.methods.contains message.method then
    if message.wantsAnswer then (server, .refused .invalidRequest, [])
    else
      match message.params?.bind (Notice.ofParams? message.method) with
      | none => (server, .silent, [])
      | some said =>
        let (server, sent) := server.notice said
        (server, .silent, sent)
  else if !message.wantsAnswer then (server, .silent, [])
  else
    match message.params? with
    | none => (server, .refused .invalidParams, [])
    | some params =>
      match Query.ofParams message.method params with
      | .ok query => (server, .result (server.answer query), [])
      | .error reason => (server, .refused reason, [])

/-- The notice by which a client no longer wants an answer.  Each message has had its answer before
the next one comes in, so there is nothing to do. -/
def cancelMethod : String :=
  "$/cancelRequest"

def receive (server : Server) (message : Message) : Server × Reply × List Sent :=
  if server.phase = .exited then (server, .ended, [])
  else if message.method = "exit" then ({ server with phase := .exited }, .silent, [])
  else if message.method = "initialize" then
    let (server, reply) := server.welcome message
    (server, reply, [])
  else if message.method = "shutdown" then
    let (server, reply) := server.shutDown message
    (server, reply, [])
  else if Notice.methods.contains message.method || Query.isMethod message.method then
    server.converse message
  else if message.method = cancelMethod then (server, refuse message .invalidRequest, [])
  else if beginsWith "$/" message.method then (server, .silent, [])
  else (server, refuse message .methodNotFound, [])

end Server

end BslInsight
