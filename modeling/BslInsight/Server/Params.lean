import BslInsight.Indent
import BslInsight.Json.Record
import BslInsight.Server.Location
import BslInsight.Server.Shapes.Capabilities
import BslInsight.Server.Shapes.Query

/-!
# Parameters of messages

What the server takes from the parameters of a message once they are known to have the right shape.
-/

namespace BslInsight.Server

open Json

def uri? (json : Json) : Option Uri :=
  json.str?.bind Uri.ofText?

def count? : Json → Option Nat :=
  Json.nat? 0x100000000

def int? : Json → Option Int
  | .int value => some value
  | _ => none

def record? (names : List String) (json : Json) : Option Record :=
  Record.ofJson? (names.map (⟨·, false⟩)) json

def position? (json : Json) : Option Position := do
  let record ← record? ["line", "character"] json
  return ⟨← record.required "line" count?, ← record.required "character" count?⟩

def span? (json : Json) : Option Span := do
  let record ← record? ["start", "end"] json
  return ⟨← record.required "start" position?, ← record.required "end" position?⟩

def identifier? (json : Json) : Option Uri := do
  let record ← record? ["uri"] json
  record.required "uri" uri?

structure Place where
  uri : Uri
  position : Position
deriving DecidableEq, Repr

def document? (record : Record) : Option Uri :=
  record.required "textDocument" identifier?

def place? (record : Record) : Option Place := do
  return ⟨← document? record, ← record.required "position" position?⟩

def style? (record : Record) : Option IndentStyle :=
  record.required "options" fun json => do
    let fields ← json.obj?
    return ⟨← Record.required fields "tabSize" count?,
      ← Record.required fields "insertSpaces" Json.bool?⟩

def includesDeclaration? (record : Record) : Option Bool :=
  record.required "context" fun json => do
    let fields ← record? ["includeDeclaration"] json
    fields.required "includeDeclaration" Json.bool?

def openedParams? (json : Json) : Option (Uri × Int × String) := do
  let record ← record? ["textDocument"] json
  record.required "textDocument" fun item => do
    let fields ← record? ["uri", "languageId", "version", "text"] item
    return (← fields.required "uri" uri?, ← fields.required "version" int?,
      ← fields.required "text" Json.str?)

def changeText? (json : Json) : Option String := do
  let record ← record? ["range", "rangeLength", "text"] json
  record.required "text" Json.str?

def changedParams? (json : Json) : Option (Uri × List String) := do
  let record ← record? ["textDocument", "contentChanges"] json
  let uri ← record.required "textDocument" fun item => do
    let fields ← record? ["uri", "version"] item
    fields.required "uri" uri?
  return (uri, ← record.required "contentChanges" (Json.list? changeText?))

def savedParams? (json : Json) : Option (Uri × Option String) := do
  let record ← record? ["textDocument", "text"] json
  return (← document? record, ← record.optional "text" Json.str?)

def closedParams? (json : Json) : Option Uri := do
  document? (← record? ["textDocument"] json)

structure FileEvent where
  uri : Uri
  deleted : Bool
deriving DecidableEq, Repr

def watchedParams? (json : Json) : Option (List FileEvent) := do
  let record ← record? ["changes"] json
  record.required "changes" (Json.list? fun item => do
    let fields ← record? ["uri", "type"] item
    return ⟨← fields.required "uri" uri?, (← fields.required "type" int?) == 3⟩)

def folder? (json : Json) : Option Uri := do
  let record ← record? ["uri", "name"] json
  record.required "uri" uri?

/-- The address of the workspace that a client starts with: its first folder, or else its root. -/
def initializeParams? (json : Json) : Option (Option Uri) := do
  if !Shapes.start.fits json then none
  let record ← Record.ofJson? [⟨"processId", false⟩, ⟨"rootPath", false⟩, ⟨"rootUri", true⟩,
    ⟨"initializationOptions", false⟩, ⟨"capabilities", false⟩, ⟨"trace", true⟩,
    ⟨"workspaceFolders", false⟩, ⟨"clientInfo", false⟩, ⟨"locale", false⟩] json
  let root ← record.optional "rootUri" uri?
  let folders ← record.optional "workspaceFolders" (Json.list? folder?)
  return (folders.bind List.head?) <|> root

end BslInsight.Server
